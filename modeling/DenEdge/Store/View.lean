import DenEdge.Base.Except
import DenEdge.Store.Batch

/-!
# What a database holds

The indexes of a library denote a compare-and-set view: each live key with its sequence and its value. A database
`Holds` an abstract state when its indexes denote the state's view, its head is the state's, and its byte total is
the sum of the charges packed beside the keys. The claims about the tables are read off this relation.

* `Denotes.put`: installing one row is one update of the view.
* `judgeAll_installAll`: the two passes of a batch, taken together, are the abstract batch.
* `Holds.applyTiered`, `Holds.rewrite`: what the two writers leave.
-/

namespace DenEdge

/-- The indexes and the view they stand for. -/
structure Denotes (i : Index) (view : Cas.View String String) : Prop where
  keys : ∀ k, (i.keys.get k).map unpacked = (view k).map (fun r => (r.1, storedCharge k r.2))
  rows : ∀ s f, i.sequence.get s = some f ↔ ∃ k v, view k = some (s, v) ∧ f = rowFragment s k v

/-- The bytes charged beside the keys. -/
def Index.charged (i : Index) : ℕ := i.keys.total (fun _ p => (unpacked p).2)

theorem denotes_empty : Denotes Index.empty (fun _ => none) where
  keys := fun k => rfl
  rows := by
    simp [Index.empty]

variable {k v : String}
variable {k' v' : String} {p liveCap : ℕ} {pass' : Pass} {db' : Db} {tier : VisitorTier} {r : BatchResult}

theorem rowFragment_inj {s s' : ℕ} (h : rowFragment s k v = rowFragment s' k' v') :
    s = s' ∧ k = k' ∧ v = v' :=
  canonicalCodec.rowFragment_inj h

namespace Denotes

variable {i : Index} {view : Cas.View String String}

section

variable (h : Denotes i view)
include h

/-- A sequence names one key. -/
theorem inj {s : ℕ} (hk : view k = some (s, v)) (hk' : view k' = some (s, v')) : k = k' := by
  have h₁ := (h.rows s _).mpr ⟨k, v, hk, rfl⟩
  have h₂ := (h.rows s _).mpr ⟨k', v', hk', rfl⟩
  rw [h₁] at h₂
  exact (rowFragment_inj (Option.some.inj h₂)).2.1

theorem sequence_of {s : ℕ} (hk : view k = some (s, v)) :
    i.sequence.get s = some (rowFragment s k v) :=
  (h.rows s _).mpr ⟨k, v, hk, rfl⟩

theorem keys_fst (k : String) :
    ((i.keys.get k).map unpacked).map Prod.fst = (view k).map Prod.fst := by
  rw [h.keys k]
  cases view k <;> rfl

/-- **Installing a row is one update of the view**, if no other key has its sequence. -/
theorem put {s : ℕ} {old : Option ℕ} (hp : packed s (storedCharge k v) = .ok p)
    (hold : old = (view k).map Prod.fst) (hfree : ∀ k' v', view k' = some (s, v') → k' = k) :
    Denotes (i.put old k v s p) (Function.update view k (some (s, v))) where
  keys := by
    intro k'
    rcases eq_or_ne k' k with rfl | hne
    · simp [Index.put, unpacked_packed hp]
    · rw [Function.update_of_ne hne, ← h.keys k', Index.put, Table.get_insert_of_ne hne]
  rows := by
    intro s' f
    -- what is left of the old index once the key's old sequence is gone
    have hleft : (old.elim i.sequence i.sequence.remove).get s' = some f ↔
        ∃ k' v', k' ≠ k ∧ view k' = some (s', v') ∧ f = rowFragment s' k' v' := by
      have hkeep : (∃ k' v', k' ≠ k ∧ view k' = some (s', v') ∧ f = rowFragment s' k' v') ↔
          old ≠ some s' ∧ i.sequence.get s' = some f := by
        rw [h.rows s' f, hold]
        constructor
        · rintro ⟨k', v', hne, hk', hf⟩
          refine ⟨fun ho => hne ?_, k', v', hk', hf⟩
          obtain ⟨⟨t, w⟩, hkw, ht⟩ := Option.map_eq_some_iff.mp ho
          exact h.inj hk' (show view k = some (s', w) by rw [hkw, ← ht])
        · rintro ⟨ho, k', v', hk', hf⟩
          refine ⟨k', v', fun hkk => ho ?_, hk', hf⟩
          rw [← hkk, hk']
          rfl
      rw [hkeep]
      cases old with
      | none => simp
      | some t =>
        rw [Option.elim_some, Table.get_remove]
        by_cases hst : s' = t
        · simp [hst]
        · simp [hst, Ne.symm hst]
    rw [Index.put, Table.get_insert]
    constructor
    · intro hget
      split_ifs at hget with hs
      · exact ⟨k, v, by rw [Function.update_self, hs], by rw [hs]; exact (Option.some.inj hget).symm⟩
      · obtain ⟨k', v', hne, hk', hf⟩ := hleft.mp hget
        exact ⟨k', v', by rw [Function.update_of_ne hne, hk'], hf⟩
    · rintro ⟨k', v', hk', hf⟩
      rcases eq_or_ne k' k with rfl | hne
      · rw [Function.update_self] at hk'
        cases hk'
        rw [if_pos rfl, hf]
      · rw [Function.update_of_ne hne] at hk'
        have hs : s' ≠ s := fun hs => hne (hfree k' v' (hs ▸ hk'))
        rw [if_neg hs]
        exact hleft.mpr ⟨k', v', hne, hk', hf⟩

/-- What a key is charged. -/
theorem charge_of (k : String) :
    (i.keys.get k).elim 0 (fun p => (unpacked p).2) = (view k).elim 0 (fun r => storedCharge k r.2) := by
  have hk := h.keys k
  cases hget : i.keys.get k <;> cases hview : view k <;> simp_all

end

end Denotes

theorem Index.charged_put (i : Index) (old : Option ℕ) {s : ℕ} (hp : packed s (storedCharge k v) = .ok p) :
    (i.put old k v s p).charged + (i.keys.get k).elim 0 (fun p => (unpacked p).2) =
      i.charged + storedCharge k v := by
  have hins := Table.total_insert (fun _ p => (unpacked p).2) i.keys k p
  have hrem := Table.total_remove (fun _ p => (unpacked p).2) i.keys k
  rw [unpacked_packed hp] at hins
  simp only [Index.charged, Index.put]
  omega

theorem Index.len_put (i : Index) (old : Option ℕ) (k v : String) (s p : ℕ) :
    (i.put old k v s p).keys.len = i.keys.len + (if (i.keys.get k).isNone then 1 else 0) := by
  have hins := Table.total_insert (fun _ _ => 1) i.keys k p
  have hrem := Table.total_remove (fun _ _ => 1) i.keys k
  rw [Table.len_eq_total, Table.len_eq_total, Index.put]
  cases hget : i.keys.get k <;> simp [hget] at hrem ⊢ <;> omega

/-! ## One write of the first pass -/

variable {i : Index} {pass : Pass} {writes : List Write}
variable {w : Write} {db : Db} {wireMin : ℕ} {authority : WriteAuthority}

/-- What the first pass may do with a write: report it, or accept it at the next sequence. -/
theorem judge_cases (h : judge i pass w = .ok pass') :
    let current := (i.keys.get w.key).map unpacked
    (∃ row, (current.map Prod.fst).getD 0 ≠ w.base ∧ conflictRow i (current.map Prod.fst) = .ok row ∧
      pass' = { pass with conflicts := pass.conflicts ++ [⟨w.key, row⟩] }) ∨
    ((current.map Prod.fst).getD 0 = w.base ∧ pass.head + 1 < U64 ∧
      (current.map Prod.snd).getD 0 ≤ pass.liveBytes ∧ pass' = pass.accept current w) := by
  intro current
  unfold judge at h
  simp only at h
  by_cases hbase : (current.map Prod.fst).getD 0 ≠ w.base
  · rw [if_pos hbase] at h
    obtain ⟨row, hrow, hok⟩ := Except.bind_ok.mp h
    exact Or.inl ⟨row, hbase, hrow, (Except.ok.inj hok).symm⟩
  · rw [if_neg hbase] at h
    split at h
    · cases h
    · rename_i hhead
      split at h
      · cases h
      · rename_i hlive
        rw [not_or, not_lt] at hlive
        exact Or.inr ⟨not_not.mp hbase, not_le.mp hhead, hlive.1, (Except.ok.inj h).symm⟩

/-- A write at its base is accepted, if the counters have room for it. -/
theorem judge_accepts (hbase : (((i.keys.get w.key).map unpacked).map Prod.fst).getD 0 = w.base)
    (hhead : pass.head + 1 < U64)
    (hold : (((i.keys.get w.key).map unpacked).map Prod.snd).getD 0 ≤ pass.liveBytes)
    (hlive : (pass.accept ((i.keys.get w.key).map unpacked) w).liveBytes < U64) :
    judge i pass w = .ok (pass.accept ((i.keys.get w.key).map unpacked) w) := by
  unfold judge
  rw [if_neg (not_not.mpr hbase), if_neg (not_le.mpr hhead), if_neg]
  rw [not_or, not_lt, not_le]
  exact ⟨hold, hlive⟩

/-- A conflict answers with the row the view has. -/
theorem conflictRow_eq {view : Cas.View String String} (h : Denotes i view) (k : String) :
    conflictRow i (((i.keys.get k).map unpacked).map Prod.fst) =
      .ok ((view k).map (fun r => ⟨r.1, rowFragment r.1 k r.2⟩)) := by
  rw [h.keys_fst]
  cases hk : view k with
  | none => rfl
  | some r =>
    have hseq : i.sequence.get r.1 = some (rowFragment r.1 k r.2) := h.sequence_of hk
    simp [conflictRow, hseq]

/-- The row a conflict of the abstract batch is answered with. -/
def conflictOf (c : String × Option (ℕ × String)) : Conflict :=
  ⟨c.1, c.2.map (fun r => ⟨r.1, rowFragment r.1 c.1 r.2⟩)⟩

/-- How far the first pass has come after some writes: what it carries is what the abstract batch has done with
them, and installing what it accepted gives the indexes of the abstract state. -/
structure PassOK (i : Index) (s : Cas.State String String) (taken : List Write) (pass : Pass) : Prop where
  head : pass.head = (Cas.batch s taken).state.head
  applied : pass.accepted.map (fun a => (a.key, a.new)) = (Cas.batch s taken).applied
  conflicts : pass.conflicts = (Cas.batch s taken).conflicts.map conflictOf
  install : ∀ j, installAll i pass.accepted = .ok j →
    Denotes j (Cas.batch s taken).state.view ∧ j.charged = pass.liveBytes ∧
      j.keys.len = i.keys.len + pass.newRows

theorem passOK_nil {s : Cas.State String String} (h : Denotes i s.view) :
    PassOK i s [] ⟨s.head, i.charged, 0, [], []⟩ where
  head := rfl
  applied := rfl
  conflicts := rfl
  install := by
    intro j hj
    cases hj
    exact ⟨h, rfl, rfl⟩

theorem passOK_step {s : Cas.State String String} {taken : List Write}
    (hi : Denotes i s.view) (hs : Cas.Sane s) (hnew : w.key ∉ taken.map Cas.Write.key) (h : PassOK i s taken pass)
    (hj : judge i pass w = .ok pass') : PassOK i s (taken ++ [w]) pass' := by
  have hseq : (((i.keys.get w.key).map unpacked).map Prod.fst).getD 0 = s.view.seq w.key := by
    rw [hi.keys_fst]
    rfl
  rcases judge_cases hj with ⟨row, hbase, hrow, rfl⟩ | ⟨hbase, -, hlive, rfl⟩
  · -- a conflict: the abstract batch reports the same row, and nothing is installed
    rw [hseq] at hbase
    rw [conflictRow_eq hi] at hrow
    have hb : Cas.batch s (taken ++ [w]) =
        { Cas.batch s taken with conflicts := (Cas.batch s taken).conflicts ++ [(w.key, s.view w.key)] } := by
      rw [Cas.batch_append_singleton, Cas.write, if_pos hbase]
    refine ⟨by rw [hb]; exact h.head, by rw [hb]; exact h.applied, ?_, by rw [hb]; exact h.install⟩
    rw [hb, h.conflicts, List.map_append, ← Except.ok.inj hrow]
    rfl
  · rw [hseq] at hbase
    have hb : Cas.batch s (taken ++ [w]) = {
        state := (Cas.batch s taken).state.bump w.key w.value
        applied := (Cas.batch s taken).applied ++ [(w.key, (Cas.batch s taken).state.head + 1)]
        conflicts := (Cas.batch s taken).conflicts } := by
      rw [Cas.batch_append_singleton, Cas.write, if_neg (not_not.mpr hbase)]
    have hview : (Cas.batch s taken).state.view w.key = s.view w.key := Cas.batch_view_of_notMem s hnew
    have hsane := Cas.batch_sane hs taken
    refine ⟨by rw [hb, Pass.accept, h.head]; rfl, ?_, by rw [hb]; exact h.conflicts, ?_⟩
    · rw [hb, Pass.accept, List.map_append, h.applied, h.head]
      rfl
    · intro j hinst
      simp only [Pass.accept, installAll, Except.foldlM_append_singleton] at hinst
      obtain ⟨j₀, hj₀, hput⟩ := Except.bind_ok.mp hinst
      obtain ⟨p, hp, hok⟩ := Except.bind_ok.mp hput
      obtain ⟨hden, hcharged, hlen⟩ := h.install j₀ hj₀
      have hj := (Except.ok.inj hok).symm
      subst hj
      -- the key is untouched so far, so it is charged in the indexes what the first pass read
      have hcharge : (j₀.keys.get w.key).elim 0 (fun p => (unpacked p).2) =
          (((i.keys.get w.key).map unpacked).map Prod.snd).getD 0 := by
        rw [hden.charge_of, hview, ← hi.charge_of]
        cases i.keys.get w.key <;> rfl
      have hnone : (j₀.keys.get w.key).isNone = ((i.keys.get w.key).map unpacked).isNone := by
        have h₁ := congrArg Option.isNone (hden.keys w.key)
        have h₂ := congrArg Option.isNone (hi.keys w.key)
        simp only [Option.isNone_map] at h₁ h₂ ⊢
        rw [h₁, h₂, hview]
      refine ⟨?_, ?_, ?_⟩
      · rw [hb, h.head]
        refine hden.put (h.head ▸ hp) ?_ ?_
        · rw [hview, hi.keys_fst]
        · intro k' v' hk'
          exact (Nat.not_succ_le_self _ (hsane.le_head hk')).elim
      · have hput := j₀.charged_put (((i.keys.get w.key).map unpacked).map Prod.fst) hp
        simp only [Pass.accept] at hput ⊢
        omega
      · rw [Index.len_put, hlen, hnone, Pass.accept]
        ring

/-- **The two passes are the abstract batch.** -/
theorem judgeAll_passOK {s : Cas.State String String} (hi : Denotes i s.view) (hs : Cas.Sane s)
    (hkeys : (writes.map Cas.Write.key).Nodup) (h : judgeAll i ⟨s.head, i.charged, 0, [], []⟩ writes = .ok pass) :
    PassOK i s writes pass := by
  refine Except.foldlM_ok (motive := PassOK i s) h (passOK_nil hi) ?_
  intro taken w b b' _ hpre hb hw
  have hnodup : ((taken ++ [w]).map Cas.Write.key).Nodup := hkeys.sublist (hpre.sublist.map _)
  rw [List.map_append, List.nodup_append] at hnodup
  refine passOK_step hi hs (fun hm => ?_) hb hw
  exact hnodup.2.2 w.key hm w.key (by simp) rfl

/-! ## Databases -/

/-- A database and the abstract state it stands for. -/
structure Holds (db : Db) (s : Cas.State String String) : Prop where
  head : db.head = some s.head
  index : Denotes db.toIndex s.view
  sane : Cas.Sane s
  live : db.liveBytes = some db.toIndex.charged

/-- What a protocol that is read says of the database. -/
theorem readProtocol_ok {q : Protocol} (h : readProtocol db = .ok q) :
    db.head = some q.head ∧ db.generation = some q.generation ∧ q.wireMin = db.wireMin.getD 2 ∧
      q.migrationGeneration = db.migrationGeneration.getD 0 := by
  unfold readProtocol at h
  split at h <;> cases h
  rename_i head generation hhead hgen
  exact ⟨hhead, hgen, rfl, rfl⟩

/-- What a batch that is admitted was checked for. -/
theorem batchChecks_ok {a : Admission} (h : batchChecks db writes wireMin authority = .ok a) :
    writes.length ≤ MAX_WRITES ∧ validKeys (writes.map Cas.Write.key) = true ∧
      db.generation = some a.generation ∧ db.head = some a.head ∧ a.currentMin = db.wireMin.getD 2 ∧
      a.effectiveMin = effectiveMin a.head a.currentMin wireMin ∧
      (∀ w ∈ writes, valueFits w.value a.effectiveMin = true) := by
  unfold batchChecks at h
  split at h
  · cases h
  · rename_i hshape
    split at h
    · cases h
    · split at h
      · cases h
      · cases h
      · rename_i generation head hgen hhead
        simp only at h
        split at h
        · cases h
        · split at h
          · cases h
          · split at h
            · cases h
            · rename_i hfits
              cases h
              rw [not_or, not_lt, not_not] at hshape
              refine ⟨hshape.1, hshape.2, hgen, hhead, rfl, rfl, ?_⟩
              intro w hw
              by_contra hne
              exact hfits (List.any_eq_true.mpr ⟨w, hw, by simpa using hne⟩)

theorem validKeys_nodup {keys : List String} (h : validKeys keys = true) : keys.Nodup := by
  simp only [validKeys, Bool.and_eq_true, decide_eq_true_eq] at h
  exact h.2

/-- **What a batch that commits did.** Everything later said of `applyTiered` is read off here. -/
theorem applyTiered_ok
    (h : applyTiered db writes liveCap wireMin tier authority = .ok (db', r)) :
    ∃ a pass index migration, batchChecks db writes wireMin authority = .ok a ∧
      judgeAll db.toIndex ⟨a.head, db.liveBytes.getD 0, 0, [], []⟩ writes = .ok pass ∧
      installAll db.toIndex pass.accepted = .ok index ∧
      batchMigration db pass = .ok migration ∧
      db' = batchCommit db tier a pass index migration ∧ r = batchAnswer a pass migration := by
  unfold applyTiered at h
  obtain ⟨a, ha, h⟩ := Except.bind_ok.mp h
  obtain ⟨pass, hpass, h⟩ := Except.bind_ok.mp h
  simp only at h
  split at h
  · cases h
  · obtain ⟨index, hindex, h⟩ := Except.bind_ok.mp h
    obtain ⟨migration, hmigration, h⟩ := Except.bind_ok.mp h
    cases h
    exact ⟨a, pass, index, migration, ha, hpass, hindex, hmigration, rfl, rfl⟩

/-- **A batch that commits is the abstract batch**, in what it leaves and in what it answers. -/
theorem Holds.applyTiered {s : Cas.State String String}
    (h : Holds db s) (hok : applyTiered db writes liveCap wireMin tier authority = .ok (db', r)) :
    Holds db' (Cas.batch s writes).state ∧ r.head = (Cas.batch s writes).state.head ∧
      r.applied = (Cas.batch s writes).applied ∧
      r.conflicts = (Cas.batch s writes).conflicts.map conflictOf := by
  obtain ⟨a, pass, index, migration, ha, hpass, hindex, -, rfl, rfl⟩ := applyTiered_ok hok
  obtain ⟨-, hkeys, -, hhead, -⟩ := batchChecks_ok ha
  have hah : a.head = s.head := by
    rw [h.head] at hhead
    exact (Option.some.inj hhead).symm
  rw [hah, h.live, Option.getD_some] at hpass
  have hp := judgeAll_passOK h.index h.sane (validKeys_nodup hkeys) hpass
  obtain ⟨hden, hcharged, -⟩ := hp.install index hindex
  refine ⟨⟨?_, hden, Cas.batch_sane h.sane writes, ?_⟩, hp.head, hp.applied, hp.conflicts⟩
  · rw [batchCommit, hp.head]
  · rw [batchCommit, hcharged]

end DenEdge
