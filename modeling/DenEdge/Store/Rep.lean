import DenEdge.Base.Run
import DenEdge.Store.View
import DenEdge.Store.Lifecycle

/-!
# The representation invariant through every operation

`Rep` says what the tables of an open library satisfy, in the terms of the tables alone. Every operation that
commits leaves a database that still holds an abstract state, so `Rep` follows from `Holds`.

* `Holds.rewrite`, `recharge_holds`, `importDb_holds`: the three operations that build the indexes anew.
* `Holds.of_rows`: the operations that leave rows, head and byte total alone.
-/

namespace DenEdge

/-- The tables agree with each other. -/
structure Rep (db : Db) : Prop where
  /-- A key packs a sequence iff that sequence's fragment is a row of the key. -/
  bijection : ∀ k s, (∃ p, db.keys.get k = some p ∧ (unpacked p).1 = s) ↔
    ∃ v, db.sequence.get s = some (rowFragment s k v)
  canonical : ∀ s f, db.sequence.get s = some f → ∃ k v, f = rowFragment s k v
  bounds : ∀ s f, db.sequence.get s = some f → ∃ head, db.head = some head ∧ 1 ≤ s ∧ s ≤ head
  charges : ∀ k p v, db.keys.get k = some p →
    db.sequence.get (unpacked p).1 = some (rowFragment (unpacked p).1 k v) → (unpacked p).2 = bytes k + bytes v
  live : db.liveBytes = some (db.keys.total (fun _ p => (unpacked p).2))

variable {db : Db} {s : Cas.State String String}

theorem Holds.rep (h : Holds db s) : Rep db where
  bijection := by
    intro k n
    constructor
    · rintro ⟨p, hp, hn⟩
      have hk := h.index.keys k
      rw [hp] at hk
      obtain ⟨⟨m, v⟩, hv, hm⟩ := Option.map_eq_some_iff.mp hk.symm
      have hmn : m = n := by rw [← hn, ← hm]
      exact ⟨v, h.index.sequence_of (hmn ▸ hv)⟩
    · rintro ⟨v, hv⟩
      obtain ⟨k', v', hk', hf⟩ := (h.index.rows n _).mp hv
      obtain ⟨-, rfl, rfl⟩ := rowFragment_inj hf
      have hk := h.index.keys k
      rw [hk'] at hk
      obtain ⟨p, hp, hu⟩ := Option.map_eq_some_iff.mp hk
      exact ⟨p, hp, by rw [hu]⟩
  canonical := by
    intro n f hf
    obtain ⟨k, v, -, hfrag⟩ := (h.index.rows n f).mp hf
    exact ⟨k, v, hfrag⟩
  bounds := by
    intro n f hf
    obtain ⟨k, v, hk, -⟩ := (h.index.rows n f).mp hf
    exact ⟨s.head, h.head, h.sane.pos hk, h.sane.le_head hk⟩
  charges := by
    intro k p v hp hf
    have hk := h.index.keys k
    rw [hp] at hk
    obtain ⟨⟨m, w⟩, hw, hm⟩ := Option.map_eq_some_iff.mp hk.symm
    have hu : unpacked p = (m, storedCharge k w) := hm.symm
    have hrow := h.index.sequence_of hw
    rw [hu] at hf
    rw [hrow] at hf
    obtain ⟨-, -, rfl⟩ := rowFragment_inj (Option.some.inj hf)
    rw [hu]
    rfl
  live := h.live

variable {db' : Db} {rows : List RewriteRow} {fresh : String} {lib : V2Library}

/-- An operation that leaves rows, head and byte total alone. -/
theorem Holds.of_rows (h : Holds db s) (hi : db'.toIndex = db.toIndex) (hh : db'.head = db.head)
    (hl : db'.liveBytes = db.liveBytes) : Holds db' s :=
  ⟨by rw [hh, h.head], by rw [hi]; exact h.index, h.sane, by rw [hl, hi, h.live]⟩

/-! ## Rewrites -/

/-- The rows of a rewrite, bound one after the other above `base`. -/
def rewriteState (s : Cas.State String String) (rows : List RewriteRow) : Cas.State String String :=
  rows.foldl (fun s row => s.bump row.key row.value) s

theorem rewriteState_head (s : Cas.State String String) (rows : List RewriteRow) :
    (rewriteState s rows).head = s.head + rows.length := by
  induction rows generalizing s with
  | nil => rfl
  | cons _ _ ih =>
    rw [rewriteState, List.foldl_cons, ← rewriteState, ih]
    simp only [Cas.State.bump_head, List.length_cons]
    omega

variable {live base wireMin liveCap : ℕ} {p : Protocol} {codec : FragmentCodec}

/-- Installing the rows of a rewrite over indexes that bind none of their keys. -/
theorem installAll_prepareRows {i j : Index} {total : ℕ} {prepared : List Accepted}
    (hi : Denotes i s.view) (hs : Cas.Sane s) (hlive : i.charged = live)
    (hfree : ∀ row ∈ rows, s.view row.key = none)
    (hnodup : (rows.map RewriteRow.key).Nodup) (hprep : prepareRows s.head live rows = .ok (prepared, total))
    (hinst : installAll i prepared = .ok j) :
    Denotes j (rewriteState s rows).view ∧ Cas.Sane (rewriteState s rows) ∧ j.charged = total := by
  induction rows generalizing i s live prepared with
  | nil =>
    cases hprep
    cases hinst
    exact ⟨hi, hs, hlive⟩
  | cons row rows ih =>
    rw [prepareRows] at hprep
    split at hprep
    · cases hprep
    split at hprep
    · cases hprep
    obtain ⟨⟨rest, total'⟩, hrest, hok⟩ := Except.bind_ok.mp hprep
    cases hok
    rw [installAll] at hinst
    obtain ⟨i', hi', hinst⟩ := Except.bind_ok.mp hinst
    obtain ⟨p, hp, hput⟩ := Except.bind_ok.mp hi'
    have hi' := (Except.ok.inj hput).symm
    subst hi'
    have hnone : s.view row.key = none := hfree row (by simp)
    have hden : Denotes (i.put none row.key row.value (s.head + 1) p) (s.bump row.key row.value).view :=
      hi.put hp (by rw [hnone]; rfl) fun k' v' hk' => (Nat.not_succ_le_self _ (hs.le_head hk')).elim
    have hcharged := i.charged_put none hp
    rw [hi.charge_of, hnone, hlive] at hcharged
    simp only [List.map_cons, List.nodup_cons] at hnodup
    refine ih hden (hs.bump _ _) hcharged ?_ hnodup.2 hrest hinst
    intro row' hrow'
    have hne : row'.key ≠ row.key := fun h => hnodup.1 (h ▸ List.mem_map_of_mem hrow')
    rw [Cas.State.bump_view_of_ne _ _ hne]
    exact hfree row' (by simp [hrow'])

/-- **What a rewrite that commits did.** -/
theorem rewrite_ok
    (h : rewrite db base rows wireMin liveCap fresh = .ok (db', p)) :
    ∃ prepared live index migration, validKeys (rows.map RewriteRow.key) = true ∧
      prepareRows base 0 rows = .ok (prepared, live) ∧ db.head = some base ∧
      nextMigration (db.migrationGeneration.getD 0) = .ok migration ∧
      installAll Index.empty prepared = .ok index ∧
      db' = { db with
        toIndex := index, head := some (base + rows.length), liveBytes := some live,
        wireMin := some (max (db.wireMin.getD 2) wireMin), migrationGeneration := some migration,
        generation := some fresh } ∧
      p = ⟨base + rows.length, max (db.wireMin.getD 2) wireMin, fresh, migration⟩ := by
  unfold rewrite at h
  split at h
  · cases h
  rename_i hshape
  obtain ⟨⟨prepared, live⟩, hprep, h⟩ := Except.bind_ok.mp h
  simp only at h
  split at h
  · cases h
  split at h
  · cases h
  split at h
  · cases h
  rename_i current hhead
  split at h
  · cases h
  rename_i hbase
  obtain ⟨migration, hmig, h⟩ := Except.bind_ok.mp h
  split at h
  · cases h
  split at h
  · cases h
  obtain ⟨index, hindex, h⟩ := Except.bind_ok.mp h
  cases h
  rw [not_or, not_lt, not_not] at hshape
  have hcb : current = base := not_not.mp hbase
  exact ⟨prepared, live, index, migration, hshape.2, hprep, hcb ▸ hhead, hmig, hindex, rfl, rfl⟩

/-- **A rewrite leaves exactly its rows**, above the head it was based on. -/
theorem Holds.rewrite
    (h : Holds db s) (hok : rewrite db base rows wireMin liveCap fresh = .ok (db', p)) :
    Holds db' (rewriteState (Cas.State.bare s.head) rows) := by
  obtain ⟨prepared, live, index, migration, hkeys, hprep, hhead, -, hindex, rfl, -⟩ := rewrite_ok hok
  rw [h.head] at hhead
  have hbase : s.head = base := Option.some.inj hhead
  subst hbase
  obtain ⟨hden, hsane, hcharged⟩ := installAll_prepareRows (s := Cas.State.bare s.head) denotes_empty
    (Cas.sane_bare _) rfl (fun _ _ => rfl) (validKeys_nodup hkeys) hprep hindex
  exact ⟨by rw [rewriteState_head]; rfl, hden, hsane, by rw [hcharged]⟩

/-! ## Stores charged by an older formula -/

/-- A store before its charges were packed: the key index holds bare sequences. -/
structure OldHolds (db : Db) (s : Cas.State String String) : Prop where
  head : db.head = some s.head
  keys : ∀ k, db.keys.get k = (s.view k).map Prod.fst
  rows : ∀ n f, db.sequence.get n = some f ↔ ∃ k v, s.view k = some (n, v) ∧ f = rowFragment n k v
  sane : Cas.Sane s

/-- What recounting makes of the entries of the key index: the same keys, each packed with the charge of its own
row, and the bytes they come to. -/
theorem rechargeRows_ok {sequence : Table ℕ String} {view : Cas.View String String}
    (hrows : ∀ n f, sequence.get n = some f ↔ ∃ k v, view k = some (n, v) ∧ f = rowFragment n k v)
    {entries rows : List (String × ℕ)} (h : rechargeRows codec sequence entries = .ok (rows, live)) :
    rows.map Prod.fst = entries.map Prod.fst ∧ live = (rows.map (fun r => (unpacked r.2).2)).sum ∧
      ∀ k p, (k, p) ∈ rows → ∃ n v, view k = some (n, v) ∧ unpacked p = (n, storedCharge k v) := by
  induction entries generalizing rows live with
  | nil =>
    cases h
    exact ⟨rfl, rfl, nofun⟩
  | cons e rest ih =>
    obtain ⟨key, seq⟩ := e
    rw [rechargeRows] at h
    obtain ⟨⟨p, charge⟩, hrow, h⟩ := Except.bind_ok.mp h
    obtain ⟨⟨rows', live'⟩, hrest, h⟩ := Except.bind_ok.mp h
    cases h
    obtain ⟨hkeys, hlive, hmem⟩ := ih hrest
    -- the key's own fragment, read back
    have hp : ∃ n v, view key = some (n, v) ∧ unpacked p = (n, storedCharge key v) ∧
        charge = storedCharge key v := by
      unfold rechargeRow at hrow
      split at hrow
      · cases hrow
      rename_i fragment hfragment
      obtain ⟨k, v, hk, rfl⟩ := (hrows seq fragment).mp hfragment
      rw [codec.decode_rowFragment] at hrow
      simp only at hrow
      split at hrow
      · cases hrow
      rename_i hkey
      obtain ⟨p', hp', hok⟩ := Except.bind_ok.mp hrow
      cases hok
      have hkk : k = key := not_not.mp hkey
      subst hkk
      exact ⟨seq, v, hk, unpacked_packed hp', rfl⟩
    obtain ⟨n, v, hview, hunpacked, hcharge⟩ := hp
    refine ⟨by simp [hkeys], ?_, ?_⟩
    · rw [List.map_cons, List.sum_cons, hunpacked, hcharge, hlive]
    · intro k q hkq
      rcases List.mem_cons.mp hkq with heq | hkq
      · cases heq
        exact ⟨n, v, hview, hunpacked⟩
      · exact hmem k q hkq

/-- **Recounting an older store packs it**, and leaves its rows and its head. -/
theorem recharge_holds (h : OldHolds db s) (hcharge : db.charge ≠ some CHARGE_PACKED)
    (hok : recharge codec db = .ok db') : Holds db' s ∧ db'.charge = some CHARGE_PACKED := by
  rw [recharge, if_neg hcharge] at hok
  obtain ⟨⟨rows, live⟩, hrows, hok⟩ := Except.bind_ok.mp hok
  cases hok
  obtain ⟨hkeys, hlive, hmem⟩ := rechargeRows_ok h.rows hrows
  have hentries := Table.foldl_insert_entries hkeys
  set keys := rows.foldl (fun t e => t.insert e.1 e.2) db.keys
  refine ⟨⟨h.head, ⟨?_, h.rows⟩, h.sane, ?_⟩, rfl⟩
  · intro k
    show (keys.get k).map unpacked = _
    cases hk : keys.get k with
    | some p =>
      rw [Table.get_eq_some, hentries] at hk
      obtain ⟨n, v, hview, hunpacked⟩ := hmem k p hk
      simp [hview, hunpacked]
    | none =>
      -- the recounted table names exactly the keys of the bare one
      have hnone : db.keys.get k = none := by
        rw [Table.get_eq_none]
        intro p hp
        have hin : k ∈ rows.map Prod.fst := hkeys ▸ List.mem_map_of_mem (f := Prod.fst) hp
        obtain ⟨⟨k', p'⟩, he, hke⟩ := List.mem_map.mp hin
        rw [← hentries] at he
        have hsome := Table.get_eq_some.mpr he
        simp only at hke
        rw [hke, hk] at hsome
        cases hsome
      rw [h.keys k] at hnone
      rw [Option.map_eq_none_iff.mp hnone]
      rfl
  · show some live = some (Index.charged ⟨keys, db.sequence⟩)
    rw [hlive, Index.charged, Table.total, hentries]

/-! ## Imported logs -/

/-- A replayed log: each row carries its own canonical fragment, at a sequence the log has reached. -/
structure Replayed (lib : V2Library) : Prop where
  fragment : ∀ k r, lib.rows.get k = some r → r.fragment = rowFragment r.seq k r.v
  le_head : ∀ k r, lib.rows.get k = some r → r.seq ≤ lib.head

theorem replay_replayed {libraryBytes : ℕ} {token : Hash} {member : Option Hash} {lines : List Line}
    (h : replay libraryBytes token member lines = .ok lib) : Replayed lib := by
  refine Except.foldlM_ok (motive := fun _ lib => Replayed lib) h ⟨?_, ?_⟩ ?_
  · intro k r hr
    cases hr
  · intro k r hr
    cases hr
  · intro _ line lib lib' _ _ hlib hline
    unfold replayLine at hline
    split at hline
    · cases hline
    simp only at hline
    split at hline
    · cases hline
    cases hline
    refine ⟨?_, ?_⟩ <;> intro k r hr <;> simp only [Table.get_insert] at hr <;> split_ifs at hr with hk
    · cases hr
      rw [hk]
    · exact hlib.fragment k r hr
    · cases hr
      exact le_max_right _ _
    · exact (hlib.le_head k r hr).trans (le_max_left _ _)

/-- The abstract state of a v2 library. -/
def V2Library.state (lib : V2Library) : Cas.State String String :=
  ⟨fun k => (lib.rows.get k).map (fun r => (r.seq, r.v)), lib.head⟩

/-- The rows of a log have distinct sequences, from `1`. -/
structure DistinctSequences (lib : V2Library) : Prop where
  pos : ∀ k r, lib.rows.get k = some r → 1 ≤ r.seq
  inj : ∀ k k' r r', lib.rows.get k = some r → lib.rows.get k' = some r' → r.seq = r'.seq → k = k'

theorem V2Library.state_sane (hr : Replayed lib) (hd : DistinctSequences lib) :
    Cas.Sane lib.state where
  pos := by
    intro k n v h
    obtain ⟨r, hk, hrn⟩ := Option.map_eq_some_iff.mp h
    cases hrn
    exact hd.pos k r hk
  le_head := by
    intro k n v h
    obtain ⟨r, hk, hrn⟩ := Option.map_eq_some_iff.mp h
    cases hrn
    exact hr.le_head k r hk
  inj := by
    intro k k' n v v' h h'
    obtain ⟨r, hk, hrn⟩ := Option.map_eq_some_iff.mp h
    obtain ⟨r', hk', hrn'⟩ := Option.map_eq_some_iff.mp h'
    simp only [Prod.mk.injEq] at hrn hrn'
    exact hd.inj k k' r r' hk hk' (by rw [hrn.1, hrn'.1])

/-- **An import holds the log it was made from.** -/
theorem importDb_holds (hr : Replayed lib) (hd : DistinctSequences lib)
    (h : importDb lib fresh = .ok db) : Holds db lib.state := by
  obtain ⟨⟨index, live⟩, hfold, hok⟩ := Except.bind_ok.mp h
  cases hok
  have hmem : ∀ k r, (k, r) ∈ lib.rows.entries → lib.rows.get k = some r := fun k r => Table.get_eq_some.mpr
  -- the entries taken so far are what the indexes denote
  have hinv := Except.foldlM_ok hfold
    (motive := fun taken acc => Denotes acc.1 (fun k => (taken.lookup k).map (fun r => (r.seq, r.v))) ∧
      acc.1.charged = acc.2) ⟨denotes_empty, rfl⟩ ?_
  · refine ⟨rfl, hinv.1, V2Library.state_sane hr hd, ?_⟩
    show some live = some index.charged
    rw [hinv.2]
  · rintro taken ⟨k, r⟩ ⟨i, n⟩ ⟨i', n'⟩ hin hpre ⟨hden, hcharged⟩ hrow
    obtain ⟨p, hp, hok⟩ := Except.bind_ok.mp hrow
    cases hok
    have hk := hmem k r hin
    have hsorted : (taken ++ [(k, r)]).Pairwise (fun a b => a.1 < b.1) := lib.rows.sorted.sublist hpre.sublist
    have hfree : taken.lookup k = none := by
      rw [List.lookup_eq_none_iff]
      intro e he
      have hlt : e.1 < k := (List.pairwise_append.mp hsorted).2.2 e he (k, r) (by simp)
      simpa using ne_of_gt hlt
    have hput : Denotes (i.put none k r.v r.seq p)
        (Function.update (fun k => (taken.lookup k).map (fun r => (r.seq, r.v))) k (some (r.seq, r.v))) := by
      refine hden.put hp (by simp [hfree]) ?_
      intro k' v' hk'
      obtain ⟨r', hr', hrv⟩ := Option.map_eq_some_iff.mp hk'
      obtain ⟨l₁, l₂, hl, -⟩ := List.lookup_eq_some_iff.mp hr'
      have hin' : (k', r') ∈ lib.rows.entries := hpre.subset (by rw [hl]; simp)
      exact hd.inj k' k r' r (hmem _ _ hin') hk (congrArg Prod.fst hrv)
    have hfragment : r.fragment = rowFragment r.seq k r.v := hr.fragment k r hk
    have hindex : (⟨i.keys.insert k p, i.sequence.insert r.seq r.fragment⟩ : Index) =
        i.put none k r.v r.seq p := by
      rw [hfragment]
      rfl
    have hcharge := i.charged_put none hp
    rw [hden.charge_of, hfree] at hcharge
    refine ⟨?_, ?_⟩
    · convert hput using 1
      funext k'
      rcases eq_or_ne k' k with rfl | hne
      · rw [List.lookup_append, hfree]
        simp
      · have hbeq : (k' == k) = false := by simpa using hne
        rw [Function.update_of_ne hne, List.lookup_append, List.lookup_cons, hbeq, List.lookup_nil,
          Option.or_none]
    · simp only [hindex]
      simp only [Option.map_none, Option.elim_none, add_zero] at hcharge
      rw [hcharge, hcharged]

end DenEdge
