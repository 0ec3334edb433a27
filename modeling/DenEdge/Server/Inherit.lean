import DenEdge.Server.Isolation

/-!
# A first batch inherits its household's wire minimum

A batch that finds neither a database nor a log sets its library's wire minimum, at least that of the library its
member proof names, up to 4. The database is made before the transaction, so an attempt that commits no row leaves
one behind: the batch after it finds a library, inherits nothing and still sets the minimum of an empty head.

* `applyTiered_first`: the transaction of the first row raises the minimum to the one it was given.
* `batch_new_minimum`, `batch_old_minimum`: which minimum that is, where nothing was there and where a database
  was.
* `first_batch_inherits`: over the whole request, when the proven library's minimum is inherited.
-/

namespace DenEdge

variable {cfg : Config} {files : Files} {f g : LibFiles} {r : BatchRequest} {token : Hash}

/-- Something holds of the wire minimum of the library, once it has a row. -/
def Minimum (P : ℕ → Prop) (f : LibFiles) : Prop :=
  ∀ db, f.db = some db → db.head.getD 0 ≠ 0 → P (db.wireMin.getD 2)

/-- A library without a row: neither a log nor a database with one. -/
def LibFiles.Rowless (f : LibFiles) : Prop := f.log = none ∧ ∀ db ∈ f.db, db.head.getD 0 = 0

instance (f : LibFiles) : Decidable f.Rowless := inferInstanceAs (Decidable (_ ∧ _))

/-- The wire minimum of a library. -/
def LibFiles.wireMinimum (f : LibFiles) : ℕ := (f.db.bind Db.wireMin).getD 2

theorem LibFiles.Rowless.minimum {P : ℕ → Prop} (h : f.Rowless) : Minimum P f :=
  fun db hdb hrow => absurd (h.2 db hdb) hrow

theorem Kept.rowless (h : Kept g f) (hg : g.Rowless) : f.Rowless ∧ f.wireMinimum = g.wireMinimum := by
  unfold LibFiles.Rowless LibFiles.wireMinimum
  rcases h.db with hdb | ⟨db, hdb, hdb'⟩
  · rw [hdb, h.log]
    exact ⟨hg, rfl⟩
  · rw [hdb', hdb, h.log]
    refine ⟨⟨hg.1, fun d hd => ?_⟩, rfl⟩
    cases hd
    exact hg.2 db hdb

theorem memberWireMinimum_held {id other token : String} {protocol : Option Protocol}
    (hheld : holdsAnother cfg files id (some (other, token)) = .ok true)
    (hprotocol : protocolFor (files other) = .ok protocol) :
    memberWireMinimum cfg files id (some (other, token)) =
      .ok (some (min ((protocol.map Protocol.wireMin).getD 2) 4)) := by
  simp only [memberWireMinimum, hheld, hprotocol, Except.ok_bind]
  cases protocol <;> rfl

/-- The head moves only where a write is accepted. -/
theorem judgeAll_head {index : Index} {pass pass' : Pass} {writes : List Write}
    (h : judgeAll index pass writes = .ok pass') (hnone : pass'.accepted = []) : pass'.head = pass.head := by
  refine Except.foldlM_ok (motive := fun _ p => p.accepted = [] → p.head = pass.head) h (fun _ => rfl) ?_ hnone
  intro taken w b b' _ _ hb hw
  unfold judge at hw
  dsimp only at hw
  split_ifs at hw
  · obtain ⟨row, -, hw⟩ := Except.bind_ok.mp hw
    cases hw
    exact hb
  · cases hw
    intro hnil
    simp [Pass.accept] at hnil

/-- **The first row raises the minimum to that of its batch.** -/
theorem applyTiered_first {db db' : Db} {writes : List Write} {liveCap wireMin : ℕ} {tier : VisitorTier}
    {authority : WriteAuthority} {result : BatchResult} (hempty : db.head.getD 0 = 0)
    (hok : applyTiered db writes liveCap wireMin tier authority = .ok (db', result))
    (hrow : db'.head.getD 0 ≠ 0) : db'.wireMin.getD 2 = max (db.wireMin.getD 2) wireMin := by
  obtain ⟨a, pass, index, migration, ha, hpass, -, -, rfl, -⟩ := applyTiered_ok hok
  obtain ⟨-, -, -, hdb, hcurrent, hmin, -⟩ := batchChecks_ok ha
  have hzero : a.head = 0 := by
    rw [hdb] at hempty
    exact hempty
  have haccepted : pass.accepted ≠ [] := fun hnil => hrow ((judgeAll_head hpass hnil).trans hzero)
  show (if a.head = 0 ∧ pass.accepted ≠ [] then some a.effectiveMin else db.wireMin).getD 2 = _
  rw [if_pos ⟨hzero, haccepted⟩, Option.getD_some, hmin, effectiveMin, if_pos hzero, hcurrent]

/-- The transaction of a batch on a database without a row. -/
theorem batchApply_minimum {db : Db} {plan : BatchPlan} {P : ℕ → Prop} (hdb : f.db = some db)
    (hempty : db.head.getD 0 = 0) (hP : P (max (db.wireMin.getD 2) plan.firstMin)) :
    (batchApply cfg f db r plan).Ends (fun e => Minimum P e.1) (fun e => Minimum P e.1) := by
  have hbefore : Minimum P f := by
    intro db' hdb' hrow
    cases hdb.symm.trans hdb'
    exact absurd hempty hrow
  unfold batchApply
  split
  · exact hbefore
  refine (reading_ends (fun _ => hbefore) _).bind fun protocol hprotocol => ?_
  refine (requestAuthority_ends (fun _ => hbefore) r.toCall _).bind fun _ _ => ?_
  have hhead : protocol.head = 0 := by
    rw [(readProtocol_ok hprotocol).1] at hempty
    exact hempty
  dsimp only
  split
  · exact hbefore
  · rename_i db' result happly
    rw [if_pos hhead] at happly
    have hset : Minimum P { f with db := some db' } := by
      intro d hd hrow
      obtain rfl : db' = d := Option.some.inj hd
      rw [applyTiered_first hempty happly hrow]
      exact hP
    split <;> exact hset

/-- **The minimum of a first row.** A batch that finds nothing sets at least what it inherits; one that finds a
database raises the minimum of that to its own. -/
theorem batch_minimum {P : ℕ → Prop} (h : Admitted cfg r.toCall g f) (hg : g.Rowless)
    (hnew : g.db = none → ∀ firstMin, FirstMinOK cfg files r firstMin → P (max 2 firstMin))
    (hold : g.db ≠ none → P (max g.wireMinimum (r.requestedMin.getD 2))) :
    (batch cfg files f r token).Ends (fun e => Minimum P e.1) (fun e => Minimum P e.1) := by
  obtain ⟨hf, hminimum⟩ := h.rowless hg
  have hbefore : Minimum P f := hf.minimum
  have hpublished : Minimum P (published f) := hf.minimum
  unfold batch batchStore
  split
  · exact hbefore
  split
  · exact hbefore
  split
  · exact hbefore
  rw [bind_assoc]
  refine (batchPlan_ends (fun _ => hpublished) r token).bind fun plan hplan => ?_
  obtain ⟨-, hfirst, hrequested, -⟩ := hplan
  have hlog : (published f).log = none := hf.1
  split
  · exact hpublished
  · exact hpublished
  · rename_i f' db hstore
    rcases v3Store_ok hlog hstore with ⟨hv3, rfl, hdb⟩ | ⟨hv2, -, rfl, rfl⟩
    · have hfound : f.db = some db := hdb
      refine batchApply_minimum hdb (hf.2 db hfound) ?_
      rw [hrequested (by simp [newLibrary, hv3])]
      have hwire : db.wireMin.getD 2 = g.wireMinimum := by rw [← hminimum, LibFiles.wireMinimum, hfound]; rfl
      rw [hwire]
      refine hold fun hnone => ?_
      rw [h.db_none.mpr hnone] at hfound
      cases hfound
    · refine batchApply_minimum rfl rfl (hnew ?_ plan.firstMin (hfirst (by simp [newLibrary, hv2, hlog])))
      exact h.db_none.mp (db_none_of_v2 hf.1 (by rw [← hv2, authority_published]))

/-! A server that lets anyone start a library, with a household's library at wire minimum 4. -/

def openConfig : Config := { sampleConfig with newLibraries := .anyone }

/-- One row at wire 4. -/
def modernBatch (id : String) (base : ℕ) (requestedMin : Option ℕ) (member : Option Proof) : BatchRequest where
  id := id
  token := some "token"
  wire := some 4
  generation := some "0"
  member := member
  now := 0
  fresh := "g"
  lockVoid := false
  fault := .none
  requestedMin := requestedMin
  writes := [⟨"cccccccccccccccc", base, "value"⟩]
  declared := false
  limited := none

def householdAtFour : Files := serve openConfig noLibraries (.batch (modernBatch firstLibrary 0 (some 4) none))

/-- **When a first batch inherits.** Where a batch commits the first row of its library under a valid proof of
another, the row leaves the wire minimum at least that library's, up to 4, exactly when the batch found neither a
database nor a log under its id, or the minimum it asks for or the one the database had is that high. -/
theorem first_batch_inherits (cfg : Config) (files : Files) (r : BatchRequest) (hrowless : (files r.id).Rowless)
    (other token : String) (hmember : r.member = some (other, token))
    (hheld : holdsAnother cfg files r.id (some (other, token)) = .ok true) (protocol : Option Protocol)
    (hprotocol : protocolFor (files other) = .ok protocol) (db : Db)
    (hdb : (serve cfg files (.batch r) r.id).db = some db) (hrow : db.head.getD 0 ≠ 0) :
    min ((protocol.map Protocol.wireMin).getD 2) 4 ≤ db.wireMin.getD 2 ↔
      (files r.id).Unstarted ∨
        min ((protocol.map Protocol.wireMin).getD 2) 4 ≤
          max (files r.id).wireMinimum (r.requestedMin.getD 2) := by
  have hserve : ∀ P : ℕ → Prop,
      ((files r.id).db = none → ∀ firstMin, FirstMinOK cfg files r firstMin → P (max 2 firstMin)) →
      ((files r.id).db ≠ none → P (max (files r.id).wireMinimum (r.requestedMin.getD 2))) →
        P (db.wireMin.getD 2) := by
    intro P hnew hold
    have hminimum : Minimum P (serve cfg files (.batch r) r.id) := by
      unfold serve
      rw [show (Request.batch r).id = r.id from rfl, Function.update_self]
      exact admitted_leaves _ r.toCall false (fun f' hf' => (hf'.rowless hrowless).1.minimum)
        fun f' token hf' => batch_minimum hf' hrowless hnew hold
    exact hminimum db hdb hrow
  by_cases hunstarted : (files r.id).Unstarted
  · refine iff_of_true (hserve _ (fun _ firstMin hfirst => ?_) fun hsome => absurd hunstarted.2 hsome)
      (.inl hunstarted)
    have hinherited := hfirst.2 _ (hmember ▸ memberWireMinimum_held hheld hprotocol)
    exact hinherited.trans (le_max_right _ _)
  · have hwire := hserve (fun w => w = max (files r.id).wireMinimum (r.requestedMin.getD 2))
      (fun hnone => absurd ⟨hrowless.1, hnone⟩ hunstarted) fun _ => rfl
    rw [hwire, or_iff_right hunstarted]

theorem first_batch_inherits_four :
    let r := modernBatch secondLibrary 0 none (some (firstLibrary, "token"))
    ∃ db, (serve openConfig householdAtFour (.batch r) r.id).db = some db ∧ db.head = some 1 ∧
      min 4 4 ≤ db.wireMin.getD 2 := by
  intro r
  obtain ⟨db, hdb, hhead⟩ : ∃ db, (serve openConfig householdAtFour (.batch r) r.id).db = some db ∧
    db.head = some 1 := by
    decide +kernel
  exact ⟨db, hdb, hhead,
    (first_batch_inherits openConfig householdAtFour r (by decide +kernel) firstLibrary "token" rfl
    (by decide +kernel) (some ⟨1, 4, "g", 1⟩) (by decide +kernel) db hdb (by simp [hhead])).mpr
    (.inl (by decide +kernel))⟩

/-- A batch made only of conflicts leaves the database of the second library, and the first row there is committed
under the proof of the first library, at wire minimum 2. -/
theorem first_row_forgets_minimum :
    let r := { modernBatch secondLibrary 0 none (some (firstLibrary, "token")) with generation := some "s.g" }
    let files := serve openConfig householdAtFour (.batch (modernBatch secondLibrary 1 none none))
    ((files secondLibrary).db.map fun db => (db.head, db.keys.len)) = some (some 0, 0) ∧
      holdsAnother openConfig files r.id r.member = .ok true ∧
      (protocolFor (files firstLibrary)).toOption.join.map Protocol.wireMin = some 4 ∧
      ((serve openConfig files (.batch r) secondLibrary).db.map fun db => (db.head, db.wireMin)) =
        some (some 1, some 2) := by
  decide +kernel

end DenEdge
