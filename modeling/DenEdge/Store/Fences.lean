import DenEdge.Base.Lineage
import DenEdge.Store.Shelf

/-!
# Fences across restores

What a library reports of itself along every run of its shelf: the wire minimum and the migration generation never
go back, and a generation names one line of history, so that a client which saw a generation at some head can only
see that head's rows, or later ones, under it again.

* `Follows`: one file state continues another.
* `Grows`: what a commit does to the line of history; one lemma per operation.
* `HistoryOK`: every state the file has been in, the draws and the index entry; `ShelfOK` the machine's invariant.
* `step_sound`: the step lemma; `run_shelfOK`, `run_advances`: along a run. `fences_move_forward` is the result.
-/

namespace DenEdge

/-! ## What a commit does to the protocol and to the rows -/

/-- The second state keeps the rows of the first: at a sequence the first had reached, it has the first's row or
none. -/
def Follows (a b : Db) : Prop :=
  a.head.getD 0 ≤ b.head.getD 0 ∧
    ∀ n ≤ a.head.getD 0, ∀ f, b.sequence.get n = some f → a.sequence.get n = some f

theorem Follows.of_eq {a b : Db} (hhead : b.head = a.head) (hrows : b.sequence = a.sequence) : Follows a b :=
  ⟨by rw [hhead], fun _ _ f hf => hrows ▸ hf⟩

theorem Follows.trans (a b c : Db) (hab : Follows a b) (hbc : Follows b c) : Follows a c :=
  ⟨hab.1.trans hbc.1, fun n hn f hf => hab.2 n hn f (hbc.2 n (hn.trans hab.1) f hf)⟩

/-- What a commit does to the line of history its generation names. -/
inductive Grows (fresh : List String) (db db' : Db) : Prop where
  | twin (generation : db'.generation = db.generation) (head : db'.head = db.head)
      (rows : db'.sequence = db.sequence)
  | above (generation : db'.generation = db.generation) (head : db.head.getD 0 < db'.head.getD 0)
      (follows : Follows db db')
  | starts (g : String) (drawn : g ∈ fresh) (generation : db'.generation = some g)

/-- The fences of two protocols, in order: the second's migration generation is above the first's if anything was
accepted between them. -/
structure Ahead (p q : Protocol) (moved : Bool) : Prop where
  wireMin : p.wireMin ≤ q.wireMin
  migration : p.migrationGeneration ≤ q.migrationGeneration
  strict : moved = true → p.migrationGeneration < q.migrationGeneration

theorem Ahead.refl (p : Protocol) : Ahead p p false := ⟨le_refl _, le_refl _, by simp⟩

variable {m : ℕ} {writes : List Write} {tier : VisitorTier} {authority : WriteAuthority} {r : BatchResult}
    {recorded : Option IndexedProtocol} {newlyCreated moved : Bool} {current : Protocol} {e : ShelfEvent}
    {es : List ShelfEvent}

theorem nextMigration_ok {n : ℕ} (h : nextMigration n = .ok m) : m = n + 1 := by
  unfold nextMigration at h
  split at h <;> cases h
  rfl

variable {db db' : Db} {p : Protocol}

/-- The height of a file state on its line. -/
def Db.height (db : Db) : ℕ := db.head.getD 0

theorem readProtocol_height (h : readProtocol db = .ok p) : db.height = p.head := by
  rw [Db.height, (readProtocol_ok h).1]
  rfl

variable {liveCap wireMin : ℕ} {fresh second : String} {q : Protocol}

/-- A batch that commits leaves the protocol it answers, and moves the fence if it accepted anything. -/
theorem applyTiered_ahead
    (hp : readProtocol db = .ok p)
    (hok : applyTiered db writes liveCap wireMin tier authority = .ok (db', r)) :
    readProtocol db' = .ok r.protocol ∧ Ahead p r.protocol (!r.applied.isEmpty) := by
  obtain ⟨hhead, hgen, hmin, hmig⟩ := readProtocol_ok hp
  obtain ⟨a, pass, index, migration, ha, -, -, hmigration, rfl, rfl⟩ := applyTiered_ok hok
  obtain ⟨-, -, hagen, hahead, hcurrent, heffective, -⟩ := batchChecks_ok ha
  have hle : a.currentMin ≤ a.effectiveMin := by
    rw [heffective, effectiveMin]
    split_ifs
    · exact le_max_left _ _
    · exact le_refl _
  have hlater : a.head ≠ 0 → a.effectiveMin = a.currentMin :=
    fun hne => by rw [heffective, effectiveMin, if_neg hne]
  have hmoves : migration = db.migrationGeneration.getD 0 + if pass.accepted = [] then 0 else 1 := by
    unfold batchMigration at hmigration
    split_ifs at hmigration ⊢
    · exact (Except.ok.inj hmigration).symm
    · exact nextMigration_ok hmigration
  refine ⟨?_, ?_, ?_, ?_⟩
  · -- a first batch that accepts nothing does not publish its minimum, a later one has no other
    by_cases hzero : a.head = 0 <;> by_cases hnone : pass.accepted = [] <;>
      simp [readProtocol, batchCommit, batchAnswer, hnone, hagen, hzero, hlater, hcurrent, hmoves]
  · simp only [batchAnswer]
    split_ifs <;> omega
  · show p.migrationGeneration ≤ migration
    omega
  · intro hsome
    show p.migrationGeneration < migration
    rw [hmoves, hmig, if_neg (by simpa [batchAnswer] using hsome)]
    exact Nat.lt_succ_self _

/-- A batch continues the rows it found. -/
theorem applyTiered_grows
    (hdb : PackedStore db) (hok : applyTiered db writes liveCap wireMin tier authority = .ok (db', r)) :
    Grows [] db db' := by
  obtain ⟨-, -, s, hs⟩ := hdb
  obtain ⟨hs', -, happlied, -⟩ := hs.applyTiered hok
  have hhead : db.head.getD 0 = s.head := by rw [hs.head]; rfl
  have hhead' : db'.head.getD 0 = s.head + r.applied.length := by
    rw [hs'.head, happlied, ← Cas.batch_head]
    rfl
  obtain ⟨a, pass, index, migration, ha, -, hindex, -, hdb', hr⟩ := applyTiered_ok hok
  have hgen : db'.generation = db.generation := by rw [hdb']; rfl
  by_cases hnone : pass.accepted = []
  · -- nothing was installed
    rw [hnone] at hindex
    cases hindex
    have hempty : r.applied = [] := by rw [hr]; simp [batchAnswer, hnone]
    have hsame : db'.head = db.head := by
      rw [hs'.head, hs.head, Cas.batch_head, ← happlied, hempty]
      rfl
    exact .twin hgen hsame (by rw [hdb']; rfl)
  · have hlen : 0 < r.applied.length := by
      rw [hr]
      simpa [batchAnswer] using List.length_pos_iff.mpr hnone
    refine .above hgen (by omega) ⟨by omega, ?_⟩
    intro n hn f hf
    rw [hhead] at hn
    obtain ⟨k, v, hview, rfl⟩ := (hs'.index.rows n f).mp hf
    exact (hs.index.rows n _).mpr ⟨k, v, Cas.batch_view_old hview hn, rfl⟩

theorem rewrite_ahead {base : ℕ} {rows : List RewriteRow}
    (hp : readProtocol db = .ok p) (hok : rewrite db base rows wireMin liveCap fresh = .ok (db', q)) :
    readProtocol db' = .ok q ∧ Ahead p q true ∧ Grows [fresh] db db' := by
  obtain ⟨-, -, hmin, hmig⟩ := readProtocol_ok hp
  obtain ⟨_, _, _, migration, -, -, -, hnext, -, rfl, rfl⟩ := rewrite_ok hok
  have hnext := nextMigration_ok hnext
  refine ⟨rfl, ⟨?_, ?_, ?_⟩, .starts fresh (by simp) rfl⟩
  · rw [hmin]
    exact le_max_left _ _
  · simp only
    omega
  · simp only
    omega

variable {cached : Option Hash}

theorem registerMember_ahead {member : Hash} (hp : readProtocol db = .ok p)
    (hok : registerMember db cached member = .ok (db', true)) :
    ∃ q, readProtocol db' = .ok q ∧ Ahead p q true ∧ Grows [] db db' := by
  obtain ⟨hhead, hgen, hmin, hmig⟩ := readProtocol_ok hp
  unfold registerMember at hok
  split at hok
  · cases hok
  split at hok
  · split at hok <;> cases hok
  · obtain ⟨migration, hnext, hok⟩ := Except.bind_ok.mp hok
    cases hok
    have hnext := nextMigration_ok hnext
    refine ⟨⟨p.head, p.wireMin, p.generation, migration⟩, ?_, ⟨le_refl _, ?_, ?_⟩, .twin rfl rfl rfl⟩
    · simp [readProtocol, hhead, hgen, hmin]
    · simp only
      omega
    · simp only
      omega

theorem exclusiveCommit_ok {edit : ExclusiveEdit} (hok : exclusiveCommit db edit = .ok db') :
    db' = { db with records := db'.records, lock := edit.lock.apply db.lock } ∧
      (∀ source ∈ edit.expectSource, (db.migrationGeneration.getD 0, db.head.getD 0) = source) := by
  unfold exclusiveCommit at hok
  split at hok
  · cases hok
  split at hok
  · cases hok
  split at hok
  · cases hok
  rename_i hsource
  split at hok
  · cases hok
  split at hok
  · cases hok
  cases hok
  refine ⟨rfl, fun source hmem => ?_⟩
  have hsome : edit.expectSource = some source := hmem
  rw [hsome] at hsource
  simpa using hsource

/-! ## Opening -/

/-- What an open leaves of a store that was there: its rows, its head and its fences; a generation, if it had
none. -/
theorem openStore_ok {codec : FragmentCodec} {token : Hash} {member : Option Hash}
    (hformat : db.format.isSome) (hok : openStore codec db token member fresh = .ok (db', cached)) :
    db'.sequence = db.sequence ∧ db'.head = db.head ∧ db'.generation = some (db.generation.getD fresh) ∧
      db'.wireMin = some (db.wireMin.getD 2) ∧
      db'.migrationGeneration = some (db.migrationGeneration.getD 0) := by
  unfold openStore at hok
  split at hok
  · rename_i hnone
    rw [hnone] at hformat
    cases hformat
  split at hok
  · cases hok
  split at hok
  · cases hok
  split at hok
  · cases hok
  obtain ⟨db₁, hrecharge, hok⟩ := Except.bind_ok.mp hok
  cases hok
  unfold recharge at hrecharge
  split at hrecharge
  · cases hrecharge
    exact ⟨rfl, rfl, rfl, rfl, rfl⟩
  · obtain ⟨_, -, hrecharge⟩ := Except.bind_ok.mp hrecharge
    cases hrecharge
    exact ⟨rfl, rfl, rfl, rfl, rfl⟩

/-- A file of a shelf: a store of either formula. -/
def FileOK (db : Db) : Prop := OldStore db ∨ PackedStore db

theorem FileOK.format (h : FileOK db) : db.format.isSome := h.elim And.left And.left

theorem FileOK.head (h : FileOK db) : ∃ n, db.head = some n := by
  rcases h with ⟨-, -, s, hs⟩ | ⟨-, -, s, hs⟩
  · exact ⟨s.head, hs.head⟩
  · exact ⟨s.head, hs.head⟩

theorem reconciledMigration_ok {isRestored : Bool} {current remembered : ℕ}
    (h : reconciledMigration isRestored current remembered = .ok m) :
    current ≤ m ∧ remembered ≤ m ∧ (isRestored = true → remembered < m) ∧
      (current ≠ remembered → remembered < m) := by
  unfold reconciledMigration at h
  split at h
  · have := nextMigration_ok h
    omega
  · rename_i hnot
    cases h
    have hrestored : isRestored = false := by simpa using fun hr => hnot (Or.inl hr)
    refine ⟨le_refl _, by omega, by simp [hrestored], by omega⟩

/-- **What matching a file with its entry leaves.** The fences are at the entry's; past it if the file is not
where the entry was; and the generation is drawn afresh if the file's generation or head is not the entry's. -/
theorem reconcileProtocol_ok
    (hcurrent : readProtocol db = .ok current)
    (hok : reconcileProtocol db recorded newlyCreated fresh = .ok (db', p)) :
    readProtocol db' = .ok p ∧ db'.toIndex = db.toIndex ∧ db'.head = db.head ∧
      p.generation = (if restored recorded newlyCreated current then fresh else current.generation) ∧
      ∀ k ∈ recorded, k.wireMin ≤ p.wireMin ∧ k.migrationGeneration ≤ p.migrationGeneration ∧
        (restored recorded newlyCreated current = true ∨ current.migrationGeneration ≠ k.migrationGeneration →
          k.migrationGeneration < p.migrationGeneration) := by
  obtain ⟨hhead, hgen, hmin, hmig⟩ := readProtocol_ok hcurrent
  unfold reconcileProtocol at hok
  obtain ⟨current', hcurrent', hok⟩ := Except.bind_ok.mp hok
  rw [hcurrent] at hcurrent'
  cases hcurrent'
  obtain ⟨migration, hmigration, hok⟩ := Except.bind_ok.mp hok
  obtain ⟨hge, hremembered, hrestored, hdiffers⟩ := reconciledMigration_ok hmigration
  split at hok
  · rename_i hkeep
    obtain ⟨hnot, hminLe, hsame⟩ := hkeep
    cases hok
    refine ⟨hcurrent, rfl, rfl, by rw [if_neg hnot], ?_⟩
    intro k hk
    cases hk
    refine ⟨hminLe, by simpa [hsame] using hremembered, ?_⟩
    rintro (hr | hne)
    · exact absurd hr hnot
    · simpa [hsame] using hdiffers hne
  · cases hok
    refine ⟨?_, rfl, rfl, rfl, ?_⟩
    · simp [readProtocol, hhead]
    · intro k hk
      cases hk
      refine ⟨le_max_right _ _, hremembered, ?_⟩
      rintro (hr | hne)
      · exact hrestored hr
      · exact hdiffers hne

/-! ## Every state the file has been in -/

/-- Every state the file has been in is a store, its generation was drawn, and no generation's history forks; the
entry of the index names the top of its generation. -/
structure HistoryOK (copies : List Db) (drawn : List String) (index : Option IndexedProtocol) : Prop where
  stores : ∀ db ∈ copies, FileOK db
  gens : ∀ db ∈ copies, ∀ g ∈ db.generation, g ∈ drawn
  linear : Lineage.Linear Db.generation Db.height Follows copies
  known : ∀ k ∈ index, k.generation ∈ drawn ∧ Lineage.Top Db.generation Db.height copies k.generation k.head

namespace HistoryOK

variable {copies : List Db} {drawn : List String} {index : Option IndexedProtocol}

section

variable (h : HistoryOK copies drawn index)
include h

theorem draw (gs : List String) : HistoryOK copies (gs ++ drawn) index where
  stores := h.stores
  gens := fun db hdb g hg => List.mem_append_right gs (h.gens db hdb g hg)
  linear := h.linear
  known := fun k hk => ⟨List.mem_append_right gs (h.known k hk).1, (h.known k hk).2⟩

/-- A state is added on its line of history. -/
theorem add {index' : Option IndexedProtocol} (hok : FileOK db')
    (hgen : ∀ g ∈ db'.generation, g ∈ drawn)
    (hlinear : Lineage.Linear Db.generation Db.height Follows (db' :: copies))
    (hknown : ∀ k ∈ index', k.generation ∈ drawn ∧
      Lineage.Top Db.generation Db.height (db' :: copies) k.generation k.head) :
    HistoryOK (db' :: copies) drawn index' :=
  ⟨List.forall_mem_cons.mpr ⟨hok, h.stores⟩, List.forall_mem_cons.mpr ⟨hgen, h.gens⟩, hlinear, hknown⟩

/-- A new state with the rows, the head and the generation of one that was there. -/
theorem twin (hmem : db ∈ copies) (hok : FileOK db')
    (hgen : db'.generation = db.generation) (hhead : db'.head = db.head) (hrows : db'.sequence = db.sequence) :
    HistoryOK (db' :: copies) drawn index := by
  have hheight : db'.height = db.height := by rw [Db.height, Db.height, hhead]
  refine h.add hok (fun g hg => h.gens db hmem g (hgen ▸ hg)) ?_ ?_
  · exact h.linear.twin Follows.trans hmem hgen hheight (.of_eq hhead.symm hrows.symm) (.of_eq hhead hrows)
  · intro k hk
    exact ⟨(h.known k hk).1, (h.known k hk).2.twin hmem hgen hheight⟩

/-- A new state under a generation no state and no entry has. -/
theorem starts {g : String} (hok : FileOK db') (hgen : db'.generation = some g)
    (hg : g ∈ drawn) (hnew : ∀ db ∈ copies, db.generation ≠ some g) (hknown : ∀ k ∈ index, k.generation ≠ g) :
    HistoryOK (db' :: copies) drawn index := by
  refine h.add hok ?_ ?_ ?_
  · intro g' hg'
    rw [hgen] at hg'
    cases hg'
    exact hg
  · refine h.linear.fresh (.of_eq rfl rfl) fun a ha => Or.inr ?_
    rw [hgen]
    exact hnew a ha
  · intro k hk
    refine ⟨(h.known k hk).1, (h.known k hk).2.fresh ?_⟩
    rw [hgen]
    exact fun he => hknown k hk (Option.some.inj he).symm

/-- The entry follows the file: its generation is the state's, of which no state is above it. -/
theorem record {p : Protocol} (hdb : db ∈ copies)
    (hp : readProtocol db = .ok p) (htop : Lineage.Top Db.generation Db.height copies p.generation p.head) :
    HistoryOK copies drawn (some (IndexedProtocol.of p)) where
  stores := h.stores
  gens := h.gens
  linear := h.linear
  known := by
    intro k hk
    cases hk
    exact ⟨h.gens db hdb _ (readProtocol_ok hp).2.1, htop⟩

end

/-- **A commit the index follows.** Where the entry agrees with the file, a state that continues the file, or
starts a generation just drawn, is added and recorded. -/
theorem commit {p : Protocol} {fresh : List String}
    (h : HistoryOK copies drawn (some (IndexedProtocol.of p))) (hmem : db ∈ copies) (hp : readProtocol db = .ok p)
    (hok : FileOK db') (hq : readProtocol db' = .ok q) (hgrows : Grows fresh db db')
    (hfresh : ∀ g ∈ fresh, g ∉ drawn) :
    HistoryOK (db' :: copies) (fresh ++ drawn) (some (IndexedProtocol.of q)) := by
  obtain ⟨hhead, hgen, -, -⟩ := readProtocol_ok hp
  obtain ⟨hhead', hgen', -, -⟩ := readProtocol_ok hq
  have htop : Lineage.Top Db.generation Db.height copies p.generation p.head := (h.known _ rfl).2
  have hheight := readProtocol_height hp
  have hheight' := readProtocol_height hq
  have h' := h.draw fresh
  have hdb' : db' ∈ db' :: copies := List.mem_cons_self
  cases hgrows with
  | twin generation head rows =>
    have hsame : q.generation = p.generation ∧ q.head = p.head := by
      rw [hgen, hgen'] at generation
      rw [hhead, hhead'] at head
      exact ⟨Option.some.inj generation, Option.some.inj head⟩
    refine (h'.twin hmem hok generation head rows).record hdb' hq ?_
    rw [hsame.1, hsame.2]
    exact htop.twin hmem generation (by rw [Db.height, Db.height, head])
  | above generation head follows =>
    have hsame : q.generation = p.generation := by
      rw [hgen, hgen'] at generation
      exact Option.some.inj generation
    have hlt : db.height < db'.height := head
    have hlinear : Lineage.Linear Db.generation Db.height Follows (db' :: copies) := by
      refine h.linear.above Follows.trans hmem generation hlt ?_ (.of_eq rfl rfl) follows
      intro g hg
      rw [hgen] at hg
      cases hg
      rw [hheight]
      exact htop
    have htop' : Lineage.Top Db.generation Db.height (db' :: copies) q.generation q.head := by
      rw [hsame, ← hheight']
      exact htop.above (by omega)
    have hdrawn : ∀ g ∈ db'.generation, g ∈ fresh ++ drawn := fun g hg => h'.gens db hmem g (generation ▸ hg)
    refine h'.add hok hdrawn hlinear fun k hk => ?_
    cases hk
    exact ⟨hdrawn _ hgen', htop'⟩
  | starts g hdrawn generation =>
    have hnew : ∀ a ∈ copies, a.generation ≠ some g := fun a ha hg => hfresh g hdrawn (h.gens a ha g hg)
    have hqg : q.generation = g := by
      rw [hgen'] at generation
      exact Option.some.inj generation
    refine (h'.starts hok generation (List.mem_append_left _ hdrawn) hnew ?_).record hdb' hq ?_
    · intro k hk he
      exact hfresh g hdrawn (he ▸ (h.known k hk).1)
    · rw [hqg, ← hheight']
      exact Lineage.Top.start hnew

end HistoryOK

/-! ## The machine -/

namespace Shelf

/-- The file is one of the states it has been in; while the library is open, its entry is what it reports; and
there is no entry before there is a file. -/
structure ShelfOK (s : Shelf) : Prop where
  history : HistoryOK s.copies s.drawn s.index
  here : ∀ db ∈ s.file, db ∈ s.copies
  bare : s.file = none → s.index = none
  agrees : s.handle.isSome → ∃ db p, s.file = some db ∧ PackedStore db ∧ readProtocol db = .ok p ∧
    s.index = some (IndexedProtocol.of p)

variable {s : Shelf}

/-- The file is the state it has just been brought to. -/
theorem shelfOK_head {db : Db} {index : Option IndexedProtocol} {handle : Option Handle} {copies : List Db}
    {drawn : List String} (hhistory : HistoryOK (db :: copies) drawn index)
    (hagrees : handle.isSome → ∃ p, PackedStore db ∧ readProtocol db = .ok p ∧
      index = some (IndexedProtocol.of p)) :
    ShelfOK ⟨some db, index, handle, db :: copies, drawn⟩ := by
  refine ⟨hhistory, ?_, fun hnone => absurd hnone (Option.some_ne_none _), fun hopen => ?_⟩
  · intro x hx
    cases hx
    exact List.mem_cons_self
  · obtain ⟨p, hp⟩ := hagrees hopen
    exact ⟨db, p, rfl, hp⟩

theorem start_shelfOK (h : s.Start) : ShelfOK s := by
  have hmem : ∀ db, db ∈ s.copies ↔ db ∈ s.file := by
    intro db
    rw [h.copies]
    exact Option.mem_toList
  refine ⟨⟨?_, ?_, ?_, ?_⟩, ?_, fun _ => h.index, ?_⟩
  · exact fun db hdb => h.stores db ((hmem db).mp hdb)
  · exact fun db hdb => h.drawn db ((hmem db).mp hdb)
  · intro a ha b hb g _ _ _
    -- there is at most the one state
    have hab : a = b := Option.some.inj (((hmem a).mp ha).symm.trans ((hmem b).mp hb))
    exact hab ▸ .of_eq rfl rfl
  · rw [h.index]
    intro k hk
    cases hk
  · exact fun db hdb => (hmem db).mpr hdb
  · rw [h.closed]
    intro hopen
    cases hopen

section

variable (h : ShelfOK s)
include h

theorem ShelfOK.draw (gs : List String) : ShelfOK { s with drawn := gs ++ s.drawn } :=
  { h with history := h.history.draw gs }

/-- What one event does to what is remembered: no state is forgotten, and the entry's fences do not go back. -/
structure Advances (s s' : Shelf) (moved : Bool) : Prop where
  copies : ∀ db ∈ s.copies, db ∈ s'.copies
  index : ∀ k ∈ s.index, ∃ k' ∈ s'.index, k.wireMin ≤ k'.wireMin ∧
    k.migrationGeneration ≤ k'.migrationGeneration ∧
    (moved = true → k.migrationGeneration < k'.migrationGeneration)

omit h in
theorem Advances.of_same {s' : Shelf} (hcopies : ∀ db ∈ s.copies, db ∈ s'.copies) (hindex : s'.index = s.index) :
    Advances s s' false :=
  ⟨hcopies, fun k hk => ⟨k, hindex ▸ hk, le_refl _, le_refl _, by simp⟩⟩

/-- The answer of an event, as whether it accepted a mutation. -/
def accepted : Except StoreError Bool → Bool
  | .ok moved => moved
  | .error _ => false

/-- What every event is shown to do: it keeps the invariant, forgets no state, does not move the entry's fences
back, and leaves the library open where it accepts a mutation. -/
structure Sound (s : Shelf) (r : Shelf × Except StoreError Bool) : Prop where
  ok : ShelfOK r.1
  advances : Advances s r.1 (accepted r.2)
  stays : accepted r.2 = true → r.1.handle.isSome

/-! ### Mutations of an open library -/

/-- **A commit of a lease keeps the invariant**, and moves the entry with the file. -/
theorem commit_step {db' : Db} {p : Protocol} {fresh : List String} (handle : Handle)
    (hfile : s.file = some db) (hp : readProtocol db = .ok p) (hindex : s.index = some (IndexedProtocol.of p))
    (hdb' : PackedStore db') (hq : readProtocol db' = .ok q) (hgrows : Grows fresh db db')
    (hfresh : ∀ g ∈ fresh, g ∉ s.drawn) (hahead : Ahead p q moved) :
    Sound s (⟨some db', some (IndexedProtocol.of q), some handle, db' :: s.copies, fresh ++ s.drawn⟩,
      .ok moved) := by
  have hhistory : HistoryOK s.copies s.drawn (some (IndexedProtocol.of p)) := hindex ▸ h.history
  refine ⟨shelfOK_head ?_ fun _ => ⟨q, hdb', hq, rfl⟩, ⟨?_, ?_⟩, fun _ => rfl⟩
  · exact hhistory.commit (h.here db hfile) hp (Or.inr hdb') hq hgrows hfresh
  · exact fun x hx => List.mem_cons_of_mem _ hx
  · intro k hk
    rw [hindex] at hk
    cases hk
    exact ⟨_, rfl, hahead.wireMin, hahead.migration, hahead.strict⟩

/-! ### Opening -/

/-- What the file was before the open, as the protocol it was opened with. -/
structure OpenedAs (s : Shelf) (first : String) (current : Protocol) : Prop where
  file : ∀ db ∈ s.file, db.head = some current.head ∧ current.generation = db.generation.getD first ∧
    current.migrationGeneration = db.migrationGeneration.getD 0
  created : s.file = none → current.generation = first

variable {codec : FragmentCodec} {first : String} {token : Hash}

/-- The first commit of an open: the file as it was, with a generation if it had none, or a new one. -/
theorem opened_history (second : String) (hnew : first ∉ s.drawn)
    (hopen : openStore codec (s.file.getD Db.empty) token none first = .ok (db, cached)) :
    PackedStore db ∧ HistoryOK (db :: s.copies) (first :: second :: s.drawn) s.index ∧
      ∃ current, readProtocol db = .ok current ∧ OpenedAs s first current := by
  have hdrawn := h.history.draw [first, second]
  have hfirst : ∀ a ∈ s.copies, a.generation ≠ some first := fun a ha hg => hnew (h.history.gens a ha first hg)
  have hentry : ∀ k ∈ s.index, k.generation ≠ first := fun k hk he => hnew (he ▸ (h.history.known k hk).1)
  cases hfile : s.file with
  | none =>
    rw [hfile] at hopen
    cases hopen
    refine ⟨freshDb_packed _ _ _, ?_, ⟨0, 2, first, 0⟩, rfl, ?_, fun _ => rfl⟩
    · exact hdrawn.starts (Or.inr (freshDb_packed _ _ _)) rfl (by simp) hfirst hentry
    · rw [hfile]
      intro db hdb
      cases hdb
  | some before =>
    rw [hfile] at hopen
    have hmem := h.here before hfile
    have hstore := h.history.stores before hmem
    obtain ⟨hrows, hhead, hgen, hmin, hmig⟩ := openStore_ok hstore.format hopen
    have hpacked := openStore_packed (Or.inr hstore) hopen
    obtain ⟨n, hn⟩ := hstore.head
    refine ⟨hpacked, ?_,
      ⟨n, before.wireMin.getD 2, before.generation.getD first, before.migrationGeneration.getD 0⟩, ?_, ?_, ?_⟩
    · cases hbefore : before.generation with
      | none =>
        rw [hbefore] at hgen
        exact hdrawn.starts (Or.inr hpacked) hgen (by simp) hfirst hentry
      | some g =>
        rw [hbefore] at hgen
        exact hdrawn.twin hmem (Or.inr hpacked) (hgen.trans hbefore.symm) hhead hrows
    · simp [readProtocol, hhead, hn, hgen, hmin, hmig]
    · rw [hfile]
      intro db' hdb'
      cases hdb'
      exact ⟨hn, rfl, rfl⟩
    · rw [hfile]
      intro hnone
      cases hnone

omit h in
theorem restored_eq_true :
    restored recorded newlyCreated current = true ↔ newlyCreated = false ∧
      ∀ k ∈ recorded, k.generation ≠ current.generation ∨ k.head ≠ current.head := by
  cases recorded <;> simp [restored]

/-- **Opening a library keeps the invariant.** -/
theorem library_step {db' : Db} {p : Protocol}
    (hfirst : first ∉ s.drawn) (hsecond : second ∉ s.drawn) (hne : first ≠ second)
    (hopen : openStore codec (s.file.getD Db.empty) token none first = .ok (db, cached))
    (hok : reconcileProtocol db s.index s.file.isNone second = .ok (db', p)) :
    HistoryOK (db' :: db :: s.copies) (first :: second :: s.drawn) (some (IndexedProtocol.of p)) ∧
      PackedStore db' ∧ readProtocol db' = .ok p := by
  obtain ⟨hpacked, hhistory, current, hcurrent, hopened⟩ := opened_history h second hfirst hopen
  obtain ⟨hp, hindex, hhead, hgen, -⟩ := reconcileProtocol_ok hcurrent hok
  have hpacked' := reconcileProtocol_packed hpacked hok
  refine ⟨?_, hpacked', hp⟩
  obtain ⟨hheadp, hgenp, -, -⟩ := readProtocol_ok hp
  obtain ⟨hheadc, hgenc, -, -⟩ := readProtocol_ok hcurrent
  have hdb : db' ∈ db' :: db :: s.copies := List.mem_cons_self
  have hheight := readProtocol_height hp
  -- a generation of the history is one drawn before this open, or the first it drew
  have hcopies : ∀ a ∈ s.copies, ∀ g ∈ a.generation, g ∈ s.drawn := h.history.gens
  by_cases hrestored : restored s.index s.file.isNone current = true
  · rw [if_pos hrestored] at hgen
    have hgeneration : db'.generation = some second := by rw [hgenp, hgen]
    -- the file is no file of an entry, so its own generation is the file's or the first drawn
    have hnew : ∀ a ∈ db :: s.copies, a.generation ≠ some second := by
      intro a ha hg
      rcases List.mem_cons.mp ha with rfl | ha
      · obtain ⟨hcreated, -⟩ := restored_eq_true.mp hrestored
        cases hfile : s.file with
        | none =>
          rw [hfile] at hcreated
          cases hcreated
        | some before =>
          have hc := (hopened.file before hfile).2.1
          rw [hgenc, hc] at hg
          cases hbefore : before.generation with
          | none =>
            rw [hbefore] at hg
            exact hne (Option.some.inj hg)
          | some g =>
            rw [hbefore] at hg
            cases hg
            exact hsecond (hcopies before (h.here before hfile) _ hbefore)
      · exact hsecond (hcopies a ha second hg)
    have hentry : ∀ k ∈ s.index, k.generation ≠ second := fun k hk he => hsecond (he ▸ (h.history.known k hk).1)
    refine (hhistory.starts (Or.inr hpacked') hgeneration (by simp) hnew hentry).record hdb hp ?_
    rw [hgen, ← hheight]
    exact Lineage.Top.start hnew
  · have hrf : restored s.index s.file.isNone current = false := by simpa using hrestored
    rw [if_neg hrestored] at hgen
    have hgeneration : db'.generation = db.generation := by rw [hgenp, hgenc, hgen]
    have hphead : p.head = current.head := by
      rw [hheadp, hheadc] at hhead
      exact Option.some.inj hhead
    have htwin := hhistory.twin List.mem_cons_self (Or.inr hpacked') hgeneration hhead (by rw [hindex])
    refine htwin.record hdb hp ?_
    rw [hgen, hphead]
    -- the top of the generation is known from the entry, or the generation is this open's own
    have htop : Lineage.Top Db.generation Db.height (db :: s.copies) current.generation current.head := by
      cases hfile : s.file with
      | none =>
        have hc := hopened.created hfile
        rw [hc, ← readProtocol_height hcurrent]
        exact Lineage.Top.start fun a ha hg => hfirst (hcopies a ha first hg)
      | some =>
        cases hentry : s.index with
        | none =>
          rw [hfile, hentry] at hrf
          cases hrf
        | some k =>
          have hsame : k.generation = current.generation ∧ k.head = current.head := by
            rw [hfile, hentry] at hrf
            simpa [restored] using hrf
          have hk := (hhistory.known k hentry).2
          rw [hsame.1, hsame.2] at hk
          exact hk
    exact htop.twin List.mem_cons_self hgeneration (by rw [Db.height, Db.height, hhead])

/-! ### Every event -/

/-- An event that only draws. -/
theorem sound_draw (gs : List String) {answer : Except StoreError Bool}
    (hanswer : accepted answer = false) : Sound s ({ s with drawn := gs ++ s.drawn }, answer) := by
  refine ⟨h.draw gs, ?_, fun hmoved => absurd (hanswer.symm.trans hmoved) Bool.false_ne_true⟩
  rw [hanswer]
  exact .of_same (fun _ hdb => hdb) rfl

/-- An event that closes the library, over one of the states its file has been in. -/
theorem sound_close (gs : List String) (file : Option Db) (hfile : ∀ db ∈ file, db ∈ s.copies)
    (hbare : file = none → s.index = none) :
    Sound s ({ s with file := file, handle := none, drawn := gs ++ s.drawn }, .ok false) :=
  ⟨⟨h.history.draw gs, hfile, hbare, nofun⟩, .of_same (fun _ hdb => hdb) rfl, nofun⟩

theorem sound_library (hfirst : first ∉ s.drawn) (hsecond : second ∉ s.drawn)
    (hne : first ≠ second) : Sound s (s.step codec (.library token first second)) := by
  obtain ⟨file, index, handle, copies, drawn⟩ := s
  cases handle with
  | some =>
    refine sound_draw h [first, second] ?_
    split_ifs <;> rfl
  | none =>
    simp only [step, act, library]
    split
    · exact sound_draw h [first, second] rfl
    rename_i db cached hopen
    obtain ⟨-, hopened, current, hcurrent, -⟩ := opened_history h second hfirst hopen
    split
    · -- the file is opened and cannot be matched with its entry: it stays, closed
      refine ⟨shelfOK_head hopened fun hopen' => ?_, .of_same (fun x hx => List.mem_cons_of_mem _ hx) rfl, nofun⟩
      cases hopen'
    · rename_i db' p hok
      obtain ⟨hhistory, hpacked, hp⟩ := library_step h hfirst hsecond hne hopen hok
      obtain ⟨-, -, -, -, hentry⟩ := reconcileProtocol_ok hcurrent hok
      refine ⟨shelfOK_head hhistory fun _ => ⟨p, hpacked, hp, rfl⟩, ⟨?_, ?_⟩, nofun⟩
      · exact fun x hx => List.mem_cons_of_mem _ (List.mem_cons_of_mem _ hx)
      · intro k hk
        exact ⟨_, rfl, (hentry k hk).1, (hentry k hk).2.1, nofun⟩

end

/-- **Every event keeps the invariant**, forgets no state, and does not move the entry's fences back. -/
theorem step_sound (codec : FragmentCodec) (h : ShelfOK s) (hf : s.Fresh e) :
    Sound s (s.step codec e) := by
  obtain ⟨hnodup, hdraws⟩ := hf
  obtain ⟨file, index, handle, copies, drawn⟩ := s
  cases e with
  | restart => exact sound_close h [] file h.here h.bare
  | restore =>
    simp only [step, act]
    split
    · exact sound_draw h [] rfl
    · rename_i db hcopy
      refine sound_close h [] (some db) ?_ (nofun)
      intro x hx
      cases hx
      exact List.mem_of_getElem? hcopy
  | library token first second =>
    have hne : first ≠ second := by simpa [ShelfEvent.draws] using hnodup
    exact sound_library h (hdraws first (by simp [ShelfEvent.draws]))
      (hdraws second (by simp [ShelfEvent.draws])) hne
  | apply =>
    cases handle with
    | none => exact sound_draw h [] rfl
    | some handle =>
      obtain ⟨db, p, rfl, hdb, hp, rfl⟩ := h.agrees rfl
      simp only [step, act]
      split
      · exact sound_draw h [] rfl
      · rename_i db' r hok
        obtain ⟨hq, hahead⟩ := applyTiered_ahead hp hok
        exact commit_step h handle rfl hp rfl (applyTiered_packed hdb hok) hq (applyTiered_grows hdb hok) hdraws
          hahead
  | rewrite _ _ _ _ fresh =>
    cases handle with
    | none => exact sound_draw h [fresh] rfl
    | some handle =>
      obtain ⟨db, p, rfl, hdb, hp, rfl⟩ := h.agrees rfl
      simp only [step, act]
      split
      · exact sound_draw h [fresh] rfl
      · rename_i db' q hok
        obtain ⟨hq, hahead, hgrows⟩ := rewrite_ahead hp hok
        exact commit_step h handle rfl hp rfl (rewrite_packed hdb hok) hq hgrows hdraws hahead
  | registerMember =>
    cases handle with
    | none => exact sound_draw h [] rfl
    | some =>
      obtain ⟨db, p, rfl, hdb, hp, rfl⟩ := h.agrees rfl
      simp only [step, act, register]
      split
      · exact sound_draw h [] rfl
      · exact sound_draw h [] rfl
      · rename_i db' hok
        obtain ⟨q, hq, hahead, hgrows⟩ := registerMember_ahead hp hok
        simp only [hq]
        exact commit_step h _ rfl hp rfl (registerMember_packed hdb hok) hq hgrows hdraws hahead
  | exclusive =>
    cases handle with
    | none => exact sound_draw h [] rfl
    | some handle =>
      obtain ⟨db, p, rfl, hdb, hp, rfl⟩ := h.agrees rfl
      simp only [step, act]
      split
      · exact sound_draw h [] rfl
      · rename_i db' hok
        -- such a commit touches nothing that is recorded
        obtain ⟨hsame, -⟩ := exclusiveCommit_ok hok
        have hq : readProtocol db' = .ok p := by
          rw [hsame]
          exact hp
        have hgrows : Grows [] db db' := by
          rw [hsame]
          exact .twin rfl rfl rfl
        exact commit_step h handle rfl hp rfl (exclusiveCommit_packed hdb hok) hq hgrows hdraws (Ahead.refl p)

/-! ### Runs -/

theorem run_shelfOK (codec : FragmentCodec) (h : ShelfOK s)
    (hes : Run.Meets (fun s e => (s.step codec e).1) Fresh s es) : ShelfOK (s.run codec es) := by
  refine Run.exec_inv ?_ h hes
  intro t e ht he
  exact (step_sound codec ht he).ok

/-- **Nothing is forgotten and no fence goes back**, along a run. -/
theorem run_advances (codec : FragmentCodec) (h : ShelfOK s)
    (hes : Run.Meets (fun s e => (s.step codec e).1) Fresh s es) : Advances s (s.run codec es) false := by
  have hinv : ShelfOK (s.run codec es) ∧ Advances s (s.run codec es) false := by
    refine Run.exec_inv (I := fun t => ShelfOK t ∧ Advances s t false) ?_ ⟨h, .of_same (fun _ hdb => hdb) rfl⟩ hes
    rintro t e ⟨ht, hadv⟩ he
    obtain ⟨ht', hstep, -⟩ := step_sound codec ht he
    refine ⟨ht', fun db hdb => hstep.copies db (hadv.copies db hdb), fun k hk => ?_⟩
    obtain ⟨k₁, hk₁, hmin₁, hmig₁, -⟩ := hadv.index k hk
    obtain ⟨k₂, hk₂, hmin₂, hmig₂, -⟩ := hstep.index k₁ hk₁
    exact ⟨k₂, hk₂, hmin₁.trans hmin₂, hmig₁.trans hmig₂, nofun⟩
  exact hinv.2

/-- The row a reader finds at a sequence. -/
def rowAt (s : Shelf) (n : ℕ) : Option String := s.file.bind (fun db => db.sequence.get n)

/-- An open library reports its entry, and reads its rows from one of the states its file has been in. -/
theorem ShelfOK.reports (h : ShelfOK s) {p : Protocol} (hp : s.reports = some p) :
    s.index = some (IndexedProtocol.of p) ∧ ∃ db ∈ s.copies, readProtocol db = .ok p ∧
      ∀ n, s.rowAt n = db.sequence.get n := by
  unfold Shelf.reports at hp
  split_ifs at hp with hopen
  obtain ⟨db, q, hfile, -, hq, hindex⟩ := h.agrees hopen
  rw [hfile, Option.bind_some, hq] at hp
  cases hp
  refine ⟨hindex, db, h.here db hfile, hq, fun n => ?_⟩
  rw [rowAt, hfile, Option.bind_some]

theorem ShelfOK.reports_of_open (h : ShelfOK s) (hopen : s.handle.isSome) : ∃ p, s.reports = some p := by
  obtain ⟨db, p, hfile, -, hp, -⟩ := h.agrees hopen
  refine ⟨p, ?_⟩
  rw [Shelf.reports, if_pos hopen, hfile, Option.bind_some, hp]
  rfl

/-- **What an open reports**, against the entry and against the file it found. -/
theorem library_reports (h : ShelfOK s) {k : IndexedProtocol}
    (hf : s.Fresh (.library token first second)) (hclosed : s.handle = none) (hfile : s.file = some db)
    (hindex : s.index = some k) (hok : (s.step codec (.library token first second)).2 = .ok moved) :
    ∃ q, (s.step codec (.library token first second)).1.reports = some q ∧
      (db.head ≠ some k.head ∨ db.generation ≠ some k.generation ∨
          db.migrationGeneration.getD 0 ≠ k.migrationGeneration →
        k.migrationGeneration < q.migrationGeneration) ∧
      (db.head ≠ some k.head ∨ db.generation ≠ some k.generation →
        q.generation ≠ k.generation ∧ q.generation ∉ s.drawn) := by
  obtain ⟨hnodup, hdraws⟩ := hf
  have hfirst : first ∉ s.drawn := hdraws first (by simp [ShelfEvent.draws])
  have hsecond : second ∉ s.drawn := hdraws second (by simp [ShelfEvent.draws])
  have hknown : k.generation ∈ s.drawn := (h.history.known k hindex).1
  obtain ⟨file, index, handle, copies, drawn⟩ := s
  subst hclosed hfile hindex
  simp only [step, act, library] at hok ⊢
  split at hok
  · cases hok
  rename_i opened cached hopen
  obtain ⟨-, -, current, hcurrent, hopened⟩ := opened_history h second hfirst hopen
  obtain ⟨hhead, hgen, hmig⟩ := hopened.file db rfl
  split at hok
  · cases hok
  rename_i db' q hreconcile
  obtain ⟨hq, -, -, hgenq, hentry⟩ := reconcileProtocol_ok hcurrent hreconcile
  -- a file away from its entry is taken for restored: a generation drawn now is no entry's
  have hrestored : db.head ≠ some k.head ∨ db.generation ≠ some k.generation →
      restored (some k) (some db).isNone current = true := by
    intro hdiff
    refine restored_eq_true.mpr ⟨rfl, fun k' hk' => ?_⟩
    cases hk'
    rcases hdiff with hne | hne
    · right
      intro he
      exact hne (he ▸ hhead)
    · left
      intro he
      cases hbefore : db.generation with
      | none =>
        rw [hbefore] at hgen
        rw [he, hgen] at hknown
        exact hfirst hknown
      | some g =>
        rw [hbefore] at hgen hne
        simp only [Option.getD_some] at hgen
        exact hne (by rw [he, hgen])
  refine ⟨q, ?_, ?_, ?_⟩
  · simp [Shelf.reports, commit, record, hq, Except.toOption]
  · intro hdiff
    refine (hentry k rfl).2.2 ?_
    rcases hdiff with hne | hne | hne
    · exact Or.inl (hrestored (Or.inl hne))
    · exact Or.inl (hrestored (Or.inr hne))
    · exact Or.inr (hmig ▸ hne)
  · intro hdiff
    rw [if_pos (hrestored hdiff)] at hgenq
    rw [hgenq]
    refine ⟨?_, hsecond⟩
    rintro rfl
    exact hsecond hknown

/-- **Fences only move forward, across restores.** For every run from a library nobody has recorded yet, in which
every generation drawn is new: an accepted mutation raises the migration generation; opening a file that is not
where its entry was raises it above the entry's, and gives it a generation never drawn before if its head or its
generation is not the entry's; and whatever happens next, the wire minimum and the migration generation the
library reports do not go back, and under a generation it reported before there is, at every sequence it had
reached, the row it had there or none. -/
theorem fences_move_forward (codec : FragmentCodec) {s : Shelf} (hs : s.Start) {es : List ShelfEvent}
    (hes : Run.Meets (fun s e => (s.step codec e).1) Fresh s es) :
    (∀ e p, (s.run codec es).Fresh e → (s.run codec es).reports = some p →
      ((s.run codec es).step codec e).2 = .ok true →
      ∃ q, ((s.run codec es).step codec e).1.reports = some q ∧ p.migrationGeneration < q.migrationGeneration) ∧
    (∀ token first second db k moved, (s.run codec es).Fresh (.library token first second) →
      (s.run codec es).handle = none → (s.run codec es).file = some db → (s.run codec es).index = some k →
      ((s.run codec es).step codec (.library token first second)).2 = .ok moved →
      ∃ q, ((s.run codec es).step codec (.library token first second)).1.reports = some q ∧
        (db.head ≠ some k.head ∨ db.generation ≠ some k.generation ∨
            db.migrationGeneration.getD 0 ≠ k.migrationGeneration →
          k.migrationGeneration < q.migrationGeneration) ∧
        (db.head ≠ some k.head ∨ db.generation ≠ some k.generation →
          q.generation ≠ k.generation ∧ q.generation ∉ (s.run codec es).drawn)) ∧
    ∀ es', Run.Meets (fun s e => (s.step codec e).1) Fresh (s.run codec es) es' → ∀ p q,
      (s.run codec es).reports = some p → ((s.run codec es).run codec es').reports = some q →
      p.wireMin ≤ q.wireMin ∧ p.migrationGeneration ≤ q.migrationGeneration ∧
      (q.generation = p.generation → p.head ≤ q.head ∧ ∀ n ≤ p.head, ∀ f,
        ((s.run codec es).run codec es').rowAt n = some f → (s.run codec es).rowAt n = some f) := by
  have ht := run_shelfOK codec (start_shelfOK hs) hes
  refine ⟨?_, ?_, ?_⟩
  · intro e p hfresh hp haccepted
    obtain ⟨hok, hadv, hopen⟩ := step_sound codec ht hfresh
    rw [haccepted] at hadv hopen
    obtain ⟨q, hq⟩ := hok.reports_of_open (hopen rfl)
    refine ⟨q, hq, ?_⟩
    obtain ⟨k, hk, -, -, hstrict⟩ := hadv.index _ (ht.reports hp).1
    rw [(hok.reports hq).1] at hk
    cases hk
    exact hstrict rfl
  · intro token first second db k moved hfresh hclosed hfile hindex hok
    exact library_reports ht hfresh hclosed hfile hindex hok
  · intro es' hes' p q hp hq
    have hu := run_shelfOK codec ht hes'
    have hadv := run_advances codec ht hes'
    obtain ⟨hindex, db, hdb, hdbp, hrows⟩ := ht.reports hp
    obtain ⟨hindex', db', hdb', hdbq, hrows'⟩ := hu.reports hq
    obtain ⟨k, hk, hmin, hmig, -⟩ := hadv.index _ hindex
    rw [hindex'] at hk
    cases hk
    refine ⟨hmin, hmig, fun hgen => ?_⟩
    obtain ⟨-, hg, -, -⟩ := readProtocol_ok hdbp
    obtain ⟨-, hg', -, -⟩ := readProtocol_ok hdbq
    have hheight := readProtocol_height hdbp
    have hheight' := readProtocol_height hdbq
    -- both states are in the later history, on one line, and the later is at its top
    have hmem := hadv.copies db hdb
    have hle : db.height ≤ db'.height := by
      rw [hheight']
      refine (hu.history.known _ hindex').2 db hmem ?_
      rw [hg, ← hgen]
      rfl
    have hfollows := hu.history.linear db hmem db' hdb' p.generation hg (hgen ▸ hg') hle
    refine ⟨by omega, fun n hn f hf => ?_⟩
    rw [hrows' n] at hf
    rw [hrows n]
    rw [← hheight] at hn
    exact hfollows.2 n hn f hf

/-! A library that is opened, and a row written to it or a member registered; then the file is put back as it was
before that. -/

def sampleShelf : Shelf := ⟨none, none, none, [], []⟩

theorem sampleShelf_start : sampleShelf.Start where
  index := rfl
  closed := rfl
  copies := rfl
  stores := fun _ h => by cases h
  drawn := fun _ h => by cases h

def sampleWrite : ShelfEvent := .apply [⟨sampleKey, 0, "v"⟩] 1000 2 sampleTier ⟨none, none⟩

/-- The entry is what the library reported before, the file an earlier one of the same rows, and the library
reports the generation it had. -/
theorem restored_member_keeps_generation :
    Run.Meets (fun s e => (s.step canonicalCodec e).1) Fresh sampleShelf
      [.library 1 "a" "b", .registerMember 7, .restore 1, .library 1 "c" "d"] ∧
    (sampleShelf.run canonicalCodec [.library 1 "a" "b", .registerMember 7, .restore 1]).file.map readProtocol =
      some (.ok ⟨0, 2, "a", 0⟩) ∧
    (sampleShelf.run canonicalCodec [.library 1 "a" "b", .registerMember 7, .restore 1]).index =
      some ⟨"a", 0, 2, 1⟩ ∧
    (sampleShelf.run canonicalCodec
      [.library 1 "a" "b", .registerMember 7, .restore 1, .library 1 "c" "d"]).reports = some ⟨0, 2, "a", 2⟩ := by
  decide +kernel

theorem fences_move_forward_sample :
    sampleShelf.Start ∧
    Run.Meets (fun s e => (s.step canonicalCodec e).1) Fresh sampleShelf
      [.library 1 "a" "b", sampleWrite, .restore 1] ∧
    ∃ q, ((sampleShelf.run canonicalCodec [.library 1 "a" "b", sampleWrite, .restore 1]).step canonicalCodec
        (.library 1 "c" "d")).1.reports = some q ∧ 1 < q.migrationGeneration ∧ q.generation ≠ "a" := by
  have hmeets : Run.Meets (fun s e => (s.step canonicalCodec e).1) Fresh sampleShelf
      [.library 1 "a" "b", sampleWrite, .restore 1] := by decide +kernel
  have hfile : (sampleShelf.run canonicalCodec [.library 1 "a" "b", sampleWrite, .restore 1]).file =
      some (freshDb 1 none "a") := by decide +kernel
  have hindex : (sampleShelf.run canonicalCodec [.library 1 "a" "b", sampleWrite, .restore 1]).index =
      some ⟨"a", 1, 2, 1⟩ := by decide +kernel
  obtain ⟨q, hq, hmigration, hgeneration⟩ := (fences_move_forward canonicalCodec sampleShelf_start hmeets).2.1
    1 "c" "d" _ _ false (by decide +kernel) (by decide +kernel) hfile hindex (by decide +kernel)
  have hhead : (freshDb 1 none "a").head ≠ some 1 := by decide
  exact ⟨sampleShelf_start, hmeets, q, hq, hmigration (Or.inl hhead), (hgeneration (Or.inl hhead)).1⟩

end Shelf

end DenEdge
