import DenEdge.Store.History

/-!
# When a batch is applied

A batch that passes the checks before its rows, and fits the sequences, the bytes and the rows that are left, is
applied: no accounting error, no missing fragment and no overflow can refuse it. So every error of a batch on a
library whose counters are not at their end is a refusal of the batch itself.
-/

namespace DenEdge

/-- The bytes a list of writes stores. -/
def writtenBytes (writes : List Write) : ℕ := (writes.map (fun w => storedCharge w.key w.value)).sum

theorem validHexId_bytes {s : String} (h : validHexId s = true) : bytes s ≤ 128 := by
  simp only [validHexId, Bool.and_eq_true, decide_eq_true_eq] at h
  exact h.1.2

theorem valueFits_bytes {v : String} {wireMin : ℕ} (h : valueFits v wireMin = true) : bytes v ≤ MAX_VALUE_V4 := by
  unfold valueFits at h
  split at h
  · have hle : bytes v ≤ MAX_VALUE := by simpa using h
    exact hle.trans (by decide)
  · simp only [Bool.and_eq_true, decide_eq_true_eq] at h
    exact h.1

/-- A row that is admitted packs. -/
theorem packed_succeeds {s c : ℕ} (hs : s ≤ MAX_SEQUENCE) (hc : c ≤ MAX_CHARGE) : ∃ p, packed s c = .ok p :=
  ⟨_, by rw [packed, if_neg (not_lt.mpr hs), if_neg (not_lt.mpr hc)]⟩

theorem Table.elim_le_total {K V : Type*} [LinearOrder K] (f : K → V → ℕ) (t : Table K V) (k : K) :
    (t.get k).elim 0 (f k) ≤ t.total f := by
  have := t.total_remove f k
  omega

/-- The writes of a batch that land: those whose base is the sequence their key is at. -/
def landing (s : Cas.State String String) (writes : List Write) : List Write :=
  writes.filter fun w => s.view.seq w.key = w.base

theorem landing_length_le (s : Cas.State String String) (writes : List Write) :
    (landing s writes).length ≤ writes.length := List.length_filter_le _ _

theorem writtenBytes_landing_le (s : Cas.State String String) (writes : List Write) :
    writtenBytes (landing s writes) ≤ writtenBytes writes :=
  (List.filter_sublist.map _).sum_le_sum fun _ _ => Nat.zero_le _

theorem landing_append (s : Cas.State String String) (writes : List Write) (w : Write) :
    landing s (writes ++ [w]) = landing s writes ++ (if s.view.seq w.key = w.base then [w] else []) := by
  simp only [landing, List.filter_append]
  split <;> simp_all

/-- How far both passes get with some writes: they succeed, and have used up no more than the writes that land
bring. -/
structure Progress (i : Index) (s : Cas.State String String) (taken : List Write) (pass : Pass)
    (j : Index) : Prop where
  judged : judgeAll i ⟨s.head, i.charged, 0, [], []⟩ taken = .ok pass
  installed : installAll i pass.accepted = .ok j
  passOK : PassOK i s taken pass
  head : pass.head ≤ s.head + (landing s taken).length
  live : pass.liveBytes ≤ i.charged + writtenBytes (landing s taken)
  rows : pass.newRows ≤ (landing s taken).length
  count : pass.accepted.length = (landing s taken).length

variable {s : Cas.State String String}

theorem Progress.step {i j : Index} {taken : List Write} {w : Write} {pass : Pass}
    (hi : Denotes i s.view) (hs : Cas.Sane s) (hnew : w.key ∉ taken.map Cas.Write.key)
    (h : Progress i s taken pass j) (hseq : s.head + (landing s (taken ++ [w])).length ≤ MAX_SEQUENCE)
    (hbytes : i.charged + writtenBytes (landing s (taken ++ [w])) < U64)
    (hcharge : storedCharge w.key w.value ≤ MAX_CHARGE) :
    ∃ pass' j', Progress i s (taken ++ [w]) pass' j' := by
  have hjudged : ∀ pass', judge i pass w = .ok pass' →
      judgeAll i ⟨s.head, i.charged, 0, [], []⟩ (taken ++ [w]) = .ok pass' := by
    intro pass' hj
    rw [judgeAll, Except.foldlM_append_singleton]
    have hjudged := h.judged
    rw [judgeAll] at hjudged
    rw [hjudged]
    exact hj
  have hcurrent : (((i.keys.get w.key).map unpacked).map Prod.fst).getD 0 = s.view.seq w.key := by
    rw [hi.keys_fst]
    rfl
  have hland := landing_append s taken w
  by_cases hbase : s.view.seq w.key = w.base
  · rw [if_pos hbase] at hland
    have hlength : (landing s (taken ++ [w])).length = (landing s taken).length + 1 := by simp [hland]
    have hwritten : writtenBytes (landing s (taken ++ [w])) =
        writtenBytes (landing s taken) + storedCharge w.key w.value := by simp [hland, writtenBytes]
    obtain ⟨hden, hcharged, -⟩ := h.passOK.install j h.installed
    have hview := Cas.batch_view_of_notMem s hnew
    -- the bytes freed are part of the bytes held
    have hold : (((i.keys.get w.key).map unpacked).map Prod.snd).getD 0 ≤ pass.liveBytes := by
      have hle := Table.elim_le_total (fun _ p => (unpacked p).2) j.keys w.key
      rw [hden.charge_of, hview, ← hi.charge_of] at hle
      rw [← hcharged]
      refine le_trans (le_of_eq ?_) hle
      cases i.keys.get w.key <;> rfl
    have hlive := h.live
    have hhead := h.head
    have hrows := h.rows
    have hcount := h.count
    have hmax : MAX_SEQUENCE < U64 := by decide
    have hlt : (pass.accept ((i.keys.get w.key).map unpacked) w).liveBytes < U64 := by
      simp only [Pass.accept]
      omega
    have hj := judge_accepts (hcurrent.trans hbase) (show pass.head + 1 < U64 by omega) hold hlt
    obtain ⟨p, hp⟩ := packed_succeeds (show pass.head + 1 ≤ MAX_SEQUENCE by omega) hcharge
    refine ⟨_, j.put (((i.keys.get w.key).map unpacked).map Prod.fst) w.key w.value (pass.head + 1) p,
      hjudged _ hj, ?_, passOK_step hi hs hnew h.passOK hj, ?_, ?_, ?_, ?_⟩
    · have hinst := h.installed
      rw [installAll] at hinst
      rw [installAll, Pass.accept, Except.foldlM_append_singleton, hinst]
      show install j _ = _
      rw [install, hp]
      rfl
    · simp only [Pass.accept]
      omega
    · simp only [Pass.accept]
      omega
    · simp only [Pass.accept]
      split <;> omega
    · simp only [Pass.accept, List.length_append, List.length_singleton]
      omega
  · -- a conflict is always answered: the live row has its fragment
    rw [if_neg hbase, List.append_nil] at hland
    have hj : judge i pass w = .ok { pass with
        conflicts := pass.conflicts ++
          [⟨w.key, (s.view w.key).map (fun r => ⟨r.1, rowFragment r.1 w.key r.2⟩)⟩] } := by
      simp only [judge, hcurrent, if_pos hbase, conflictRow_eq hi]
      rfl
    refine ⟨_, j, hjudged _ hj, h.installed, passOK_step hi hs hnew h.passOK hj, ?_, ?_, ?_, ?_⟩
    · rw [hland]
      exact h.head
    · rw [hland]
      exact h.live
    · rw [hland]
      exact h.rows
    · rw [hland]
      exact h.count

theorem Progress.all {i : Index} {writes : List Write} (hi : Denotes i s.view)
    (hs : Cas.Sane s) (hkeys : (writes.map Cas.Write.key).Nodup)
    (hseq : s.head + (landing s writes).length ≤ MAX_SEQUENCE)
    (hbytes : i.charged + writtenBytes (landing s writes) < U64)
    (hcharge : ∀ w ∈ writes, storedCharge w.key w.value ≤ MAX_CHARGE) :
    ∃ pass j, Progress i s writes pass j := by
  induction writes using List.reverseRecOn with
  | nil => exact ⟨_, i, rfl, rfl, passOK_nil hi, le_refl _, le_refl _, le_refl _, rfl⟩
  | append_singleton taken w ih =>
    have hland := landing_append s taken w
    have hlength : (landing s taken).length ≤ (landing s (taken ++ [w])).length := by simp [hland]
    have hwritten : writtenBytes (landing s taken) ≤ writtenBytes (landing s (taken ++ [w])) := by
      simp [hland, writtenBytes]
    rw [List.map_append, List.nodup_append] at hkeys
    obtain ⟨pass, j, hp⟩ := ih hkeys.1 (by omega) (by omega) fun w' hw' => hcharge w' (by simp [hw'])
    refine hp.step hi hs (fun hm => ?_) hseq hbytes (hcharge w (by simp))
    exact hkeys.2.2 w.key hm w.key (by simp) rfl

/-- What the rows of a table of packed values are charged is bounded by their number. -/
theorem Index.charged_le (i : Index) : i.charged ≤ i.keys.len * MAX_CHARGE := by
  refine (List.sum_le_card_nsmul _ MAX_CHARGE ?_).trans (by simp [Table.len])
  intro n hn
  obtain ⟨e, -, rfl⟩ := List.mem_map.mp hn
  exact Nat.and_le_right

section

variable {db : Db} {writes : List Write} {wireMin : ℕ} {authority : WriteAuthority} {a : Admission}

theorem storedCharge_le (ha : batchChecks db writes wireMin authority = .ok a) :
    ∀ w ∈ writes, storedCharge w.key w.value ≤ MAX_CHARGE := by
  obtain ⟨-, hvalid, -, -, -, -, hfits⟩ := batchChecks_ok ha
  intro w hw
  have hkey : bytes w.key ≤ 128 := by
    simp only [validKeys, Bool.and_eq_true, List.all_eq_true] at hvalid
    exact validHexId_bytes (hvalid.1 w.key (List.mem_map_of_mem hw))
  have hvalue := valueFits_bytes (hfits w hw)
  have hmax : 128 + MAX_VALUE_V4 ≤ MAX_CHARGE := by decide
  unfold storedCharge
  omega

/-- **What an admitted batch comes to**: it is applied unless it does not fit. -/
theorem applyTiered_eq (liveCap : ℕ) (tier : VisitorTier) (h : Holds db s)
    (ha : batchChecks db writes wireMin authority = .ok a)
    (hseq : s.head + (landing s writes).length ≤ MAX_SEQUENCE)
    (hbytes : db.toIndex.charged + writtenBytes (landing s writes) < U64)
    (hmigration : db.migrationGeneration.getD 0 < MAX_SAFE_INTEGER) :
    ∃ pass j migration, Progress db.toIndex s writes pass j ∧ a.head = s.head ∧
      batchMigration db pass = .ok migration ∧ applyTiered db writes liveCap wireMin tier authority =
        if (caps db a.head liveCap tier).2 < db.keys.len + pass.newRows ∨
            (caps db a.head liveCap tier).1 < pass.liveBytes then .error .full
        else .ok (batchCommit db tier a pass j migration, batchAnswer a pass migration) := by
  obtain ⟨-, hvalid, -, hhead, -⟩ := batchChecks_ok ha
  have hah : a.head = s.head := by
    rw [h.head] at hhead
    exact (Option.some.inj hhead).symm
  obtain ⟨pass, j, hp⟩ :=
    Progress.all h.index h.sane (validKeys_nodup hvalid) hseq hbytes (storedCharge_le ha)
  have hbatch : ∃ migration, batchMigration db pass = .ok migration := by
    unfold batchMigration nextMigration
    split
    · exact ⟨_, rfl⟩
    · exact ⟨_, if_pos (by omega)⟩
  obtain ⟨migration, hmig⟩ := hbatch
  refine ⟨pass, j, migration, hp, hah, hmig, ?_⟩
  have hjudged : judgeAll db.toIndex ⟨a.head, db.liveBytes.getD 0, 0, [], []⟩ writes = .ok pass := by
    rw [hah, h.live, Option.getD_some, hp.judged]
  rw [applyTiered, ha, Except.ok_bind, hjudged]
  simp only [hp.installed, Except.ok_bind, hmig]

/-- **A batch that is admitted and fits is applied.** -/
theorem applyTiered_succeeds (liveCap : ℕ) (tier : VisitorTier) (h : Holds db s)
    (ha : batchChecks db writes wireMin authority = .ok a)
    (hseq : s.head + (landing s writes).length ≤ MAX_SEQUENCE) (hcap : (caps db a.head liveCap tier).1 < U64)
    (hbytes : db.toIndex.charged + writtenBytes (landing s writes) ≤ (caps db a.head liveCap tier).1)
    (hrows : db.keys.len + (landing s writes).length ≤ (caps db a.head liveCap tier).2)
    (hmigration : db.migrationGeneration.getD 0 < MAX_SAFE_INTEGER) :
    ∃ db' r, applyTiered db writes liveCap wireMin tier authority = .ok (db', r) ∧
      db'.toIndex.charged ≤ db.toIndex.charged + writtenBytes (landing s writes) ∧
      db'.keys.len ≤ db.keys.len + (landing s writes).length ∧
      (s.head = 0 → tier.mark = true → landing s writes ≠ [] → db'.visitor = some 1) := by
  obtain ⟨pass, j, migration, hp, hah, -, heq⟩ :=
    applyTiered_eq liveCap tier h ha hseq (hbytes.trans_lt hcap) hmigration
  have hlive := hp.live
  have hnew := hp.rows
  obtain ⟨-, hcharged, hlen⟩ := hp.passOK.install j hp.installed
  rw [if_neg (by omega)] at heq
  refine ⟨_, _, heq, ?_, ?_, ?_⟩
  · simp only [batchCommit]
    omega
  · simp only [batchCommit]
    omega
  · intro hzero hmark hlands
    have haccepted : pass.accepted ≠ [] := by
      rw [← List.length_pos_iff, hp.count]
      exact List.length_pos_iff.mpr hlands
    simp only [batchCommit, hah, hzero, haccepted, hmark, ne_eq, not_false_eq_true, and_self, if_true]

/-! ## Why a batch is refused -/

/-- The errors that refuse a batch for what it is: its keys, its size, a lock, or the wire and the generation that
it was sent under. The store's other errors say that its tables are broken or its counters at their end. -/
def Refusal : StoreError → Prop
  | .full | .locked | .generationChanged | .upgradeRequired _ | .tooLarge => True
  | .invalid why => why = "invalid or duplicate v3 write"
  | .forbidden | .failed _ => False

theorem batchChecks_refusal (h : Holds db s) {generation : String} (hgen : db.generation = some generation) :
    (batchChecks db writes wireMin authority).Ends Refusal fun _ => True := by
  unfold batchChecks
  rw [hgen, h.head]
  dsimp only
  split_ifs <;> trivial

/-- What a run of batches keeps of a library whose counters are not at their end. -/
structure Counted (db : Db) (s : Cas.State String String) : Prop extends Holds db s where
  generation : ∃ generation, db.generation = some generation
  rows : db.keys.len ≤ MAX_ROWS
  migration : db.migrationGeneration.getD 0 ≤ s.head

theorem freshDb_counted (token : Hash) (member : Option Hash) (generation : String) :
    Counted (freshDb token member generation) (Cas.State.bare 0) :=
  { freshDb_holds token member generation with
    generation := ⟨generation, rfl⟩, rows := Nat.zero_le _, migration := le_refl _ }

/-- **A batch is applied as the abstract batch, or refused for what it is.** -/
theorem Counted.applyTiered (liveCap : ℕ) (tier : VisitorTier) (h : Counted db s)
    (hseq : s.head + writes.length ≤ MAX_SEQUENCE) :
    (applyTiered db writes liveCap wireMin tier authority).Ends Refusal
      fun p => Counted p.1 (Cas.batch s writes).state := by
  obtain ⟨generation, hgen⟩ := h.generation
  have hchecks : (batchChecks db writes wireMin authority).Ends Refusal fun _ => True :=
    batchChecks_refusal h.toHolds hgen
  cases ha : batchChecks db writes wireMin authority with
  | error e =>
    rw [ha] at hchecks
    rw [DenEdge.applyTiered, ha]
    exact hchecks
  | ok a =>
    obtain ⟨hwrites, -⟩ := batchChecks_ok ha
    have hland := landing_length_le s writes
    have hwritten : writtenBytes writes ≤ writes.length * MAX_CHARGE := by
      refine (List.sum_le_card_nsmul _ MAX_CHARGE fun n hn => ?_).trans (by simp)
      obtain ⟨w, hw, rfl⟩ := List.mem_map.mp hn
      exact storedCharge_le ha w hw
    have hbytes : db.toIndex.charged + writtenBytes (landing s writes) < U64 := calc
      _ ≤ db.keys.len * MAX_CHARGE + writes.length * MAX_CHARGE :=
        Nat.add_le_add db.toIndex.charged_le ((writtenBytes_landing_le s writes).trans hwritten)
      _ ≤ MAX_ROWS * MAX_CHARGE + MAX_WRITES * MAX_CHARGE :=
        Nat.add_le_add (Nat.mul_le_mul_right _ h.rows) (Nat.mul_le_mul_right _ hwrites)
      _ < U64 := by decide
    have hmax : MAX_SEQUENCE < MAX_SAFE_INTEGER := by decide
    have hmigration := h.migration
    obtain ⟨pass, j, migration, hp, -, hmig, heq⟩ :=
      applyTiered_eq liveCap tier h.toHolds ha (by omega) hbytes (by omega)
    obtain ⟨-, -, hlen⟩ := hp.passOK.install j hp.installed
    have hcaps : (caps db a.head liveCap tier).2 ≤ MAX_ROWS := by
      unfold caps
      split
      · exact Nat.min_le_left _ _
      · exact le_refl _
    split at heq
    · rw [heq]
      trivial
    · rename_i hfits
      have hholds := (h.toHolds.applyTiered heq).1
      rw [heq]
      refine { hholds with generation := ⟨generation, hgen⟩, rows := ?_, migration := ?_ }
      · show j.keys.len ≤ MAX_ROWS
        omega
      · rw [Cas.batch_head, ← hp.passOK.applied, List.length_map]
        simp only [batchCommit]
        split
        · omega
        · rename_i haccepted
          rw [batchMigration, if_neg haccepted, nextMigration] at hmig
          have hpos := List.length_pos_iff.mpr haccepted
          split at hmig <;> cases hmig
          simp only [Option.getD_some]
          omega

end

end DenEdge
