import DenEdge.Base.Run
import DenEdge.Server.Requests
import DenEdge.Store.Progress
import DenEdge.Store.Site

/-!
# Visitors stay visitors

Under `NEW_LIBRARIES=visitors` a library started by someone who holds no household's library is marked as a
visitor's, and `isHouseholdMember` refuses it. The mark is written by the transaction of the library's first row;
the database, and with it the credentials, are there before. So the mark is certain where the batch that starts
the library lands a row and where no other start reads the library before that (`StartLands`); otherwise a library
is left that answers as a household's.

* `Visitor`: the files of a library that reaches nothing of a household.
* `handle_visitor`, `batchStore_ends`, `batchApply_new`: each step keeps it.
* `visitor_libraries_isolated`: over every run, with batches between their two steps.
-/

namespace DenEdge

variable {cfg : Config} {files : Files} {f : LibFiles}

/-! ## Libraries that are not a household's -/

/-- The files of a library with no log, whose database, once there is one, is marked. -/
structure Visitor (f : LibFiles) : Prop where
  log : f.log = none
  marked : ∀ db, f.db = some db → db.token.isSome ∧ db.visitor.isSome

/-- No library yet: neither a log nor a database. -/
def LibFiles.Unstarted (f : LibFiles) : Prop := f.log = none ∧ f.db = none

instance (f : LibFiles) : Decidable f.Unstarted := inferInstanceAs (Decidable (_ ∧ _))

theorem LibFiles.Unstarted.visitor (h : f.Unstarted) : Visitor f :=
  ⟨h.1, fun db hdb => by simp [h.2] at hdb⟩

/-- A visitor's library that answers to a proof has a database, and says it is a visitor's. -/
theorem Visitor.libraryIsVisitor (h : Visitor f) {hash : Hash} (hheld : holdsMemberHash f hash = .ok true) :
    libraryIsVisitor f = .ok true := by
  cases hdb : f.db with
  | some db => exact libraryIsVisitor_of_marked hdb (h.marked db hdb).1 (h.marked db hdb).2
  | none =>
    -- without a database there is no header to answer with
    exfalso
    have hheader : headerOf f = .ok none := by
      unfold headerOf credentials
      rw [hdb, h.log]
      split <;> rfl
    simp [holdsMemberHash, hheader] at hheld

theorem Visitor.not_household {id token : String} (h : Visitor (files id)) :
    isHouseholdMember cfg files (some (id, token)) = false := by
  rw [← Bool.not_eq_true, isHouseholdMember_iff]
  rintro ⟨-, -, hheld, hvisitor⟩
  rw [h.libraryIsVisitor hheld] at hvisitor
  cases hvisitor

variable {db db' : Db} {token : Hash}

/-- Keeping the credentials and the mark of the database keeps a visitor's library one. -/
theorem Visitor.setDb (h : Visitor f) (db' : Db) (hdb : f.db = some db) (htoken : db'.token = db.token)
    (hmark : db.visitor.isSome → db'.visitor.isSome) (stage : Option RewriteStage) :
    Visitor { f with db := some db', stage := stage } := by
  refine ⟨h.log, fun d hd => ?_⟩
  obtain rfl : db' = d := Option.some.inj hd
  have := h.marked db hdb
  exact ⟨htoken ▸ this.1, hmark this.2⟩

theorem Visitor.setStage (h : Visitor f) (stage : Option RewriteStage) : Visitor { f with stage := stage } :=
  ⟨h.log, h.marked⟩

theorem Visitor.published (h : Visitor f) : Visitor (published f) := ⟨h.log, h.marked⟩

theorem authority_published (f : LibFiles) : authority (DenEdge.published f) = authority f := by
  unfold authority DenEdge.published
  cases f.moved <;> cases f.formatV3 <;> cases f.log <;> cases f.db <;> rfl

theorem db_none_of_v2 (hlog : f.log = none) (h : authority f = .v2) : f.db = none := by
  unfold authority at h
  cases hdb : f.db with
  | none => rfl
  | some db =>
    rw [hlog, hdb] at h
    split_ifs at h with hmoved hv3
    simp at hv3

/-- Reading the staged rewrite changes at most the stage. -/
theorem loadRewrite_stage (f : LibFiles) (now : ℕ) :
    ∃ stage, (loadRewrite f now).1 = { f with stage := stage } := by
  unfold loadRewrite
  split
  · exact ⟨_, rfl⟩
  · split <;> exact ⟨_, rfl⟩

/-! ## The checks -/

/-- A refusal that leaves a visitor's library. -/
def LeavesVisitor (e : LibFiles × Reply) : Prop := Visitor e.1

variable {E : LibFiles × Reply → Prop}

theorem reading_ends {α : Type} (h : ∀ reply, E (f, reply)) (x : Except StoreError α) :
    (reading f x).Ends E (fun a => x = .ok a) := by
  cases x with
  | error e => exact h _
  | ok a => rfl

theorem requestAuthority_ends (h : ∀ reply, E (f, reply)) (c : Call) (p : Option Protocol) :
    (requestAuthority cfg f c p).Ends E (fun _ => requestAuthority cfg f c p = .ok ()) := by
  cases hr : requestAuthority cfg f c p with
  | ok _ => rfl
  | error e =>
    simp only [requestAuthority, refuse] at hr
    split_ifs at hr <;> cases hr <;> exact h _

/-- Whether a request is let through does not depend on the files a refusal would leave. -/
theorem requestAuthority_congr {f g : LibFiles} {c : Call} {p : Option Protocol}
    (h : requestAuthority cfg f c p = .ok ()) : requestAuthority cfg g c p = .ok () := by
  simp only [requestAuthority, refuse] at h ⊢
  split_ifs at h ⊢
  rfl

/-- The same library with its lock or its stage cleared. -/
structure Kept (f f' : LibFiles) : Prop where
  moved : f'.moved = f.moved
  formatV3 : f'.formatV3 = f.formatV3
  log : f'.log = f.log
  db : f'.db = f.db ∨ ∃ db, f.db = some db ∧ f'.db = some { db with lock := none }

namespace Kept

variable {f' : LibFiles}

theorem refl (f : LibFiles) : Kept f f := ⟨rfl, rfl, rfl, .inl rfl⟩

theorem db_isSome (h : Kept f f') : f'.db.isSome = f.db.isSome := by
  rcases h.db with hdb | ⟨db, hdb, hdb'⟩
  · rw [hdb]
  · rw [hdb, hdb']
    rfl

theorem db_none (h : Kept f f') : f'.db = none ↔ f.db = none := by
  rw [← Option.isNone_iff_eq_none, ← Option.isNone_iff_eq_none, ← Option.not_isSome,
    ← Option.not_isSome, h.db_isSome]

theorem authority (h : Kept f f') : authority f' = DenEdge.authority f := by
  unfold DenEdge.authority
  rw [h.moved, h.formatV3, h.log, h.db_isSome]

theorem visitor (h : Kept f f') (hvisitor : Visitor f) : Visitor f' := by
  refine ⟨h.log.trans hvisitor.log, fun db' hdb' => ?_⟩
  rcases h.db with hdb | ⟨db, hdb, heq⟩
  · exact hvisitor.marked db' (hdb.symm.trans hdb')
  · obtain rfl := Option.some.inj (heq.symm.trans hdb')
    exact hvisitor.marked db hdb

theorem setStage (h : Kept f f') (stage : Option RewriteStage) : Kept f { f' with stage := stage } :=
  ⟨h.moved, h.formatV3, h.log, h.db⟩

end Kept

theorem unlocked_ends (hE : ∀ reply, E (f, reply)) (lockVoid : Bool) : (unlocked f lockVoid).Ends E (Kept f) := by
  unfold unlocked
  split
  · exact .refl f
  · rename_i db hdb
    split
    · exact .refl f
    · split
      · exact ⟨rfl, rfl, rfl, .inr ⟨db, hdb, rfl⟩⟩
      · exact hE _

theorem loadRewrite_kept {f' : LibFiles} (h : Kept f f') (now : ℕ) : Kept f (loadRewrite f' now).1 := by
  obtain ⟨stage, hstage⟩ := loadRewrite_stage f' now
  exact hstage ▸ h.setStage stage

/-- What a request that reaches its handler was checked for. -/
structure Admitted (cfg : Config) (c : Call) (f f' : LibFiles) : Prop extends Kept f f' where
  unwritten : f'.db = none → requestAuthority cfg f' c none = .ok ()

theorem admission_ends (f : LibFiles) (c : Call) (rewriting : Bool) :
    (admission cfg f c rewriting).Ends (fun e => Kept f e.1) (fun x => Admitted cfg c f x.1) := by
  unfold admission
  split
  · exact .refl f
  split
  · exact .refl f
  refine (reading_ends (fun _ => .refl f) _).bind fun protocol hprotocol => ?_
  dsimp only
  split
  · exact .refl f
  split
  · exact .refl f
  split
  · exact .refl f
  refine (unlocked_ends (fun _ => .refl f) c.lockVoid).bind fun f' hf' => ?_
  refine (requestAuthority_ends (fun _ => hf') c protocol).bind fun _ hauth => ?_
  have hfresh : f'.db = none → requestAuthority cfg f' c none = .ok () := by
    intro hdb
    have hnone : protocol = none := by
      have := hf'.db_none.mp hdb
      simp only [protocolFor, credentials, this, Except.ok_bind] at hprotocol
      exact (Except.ok.inj hprotocol).symm
    exact hnone ▸ hauth
  split
  · exact ⟨hf', hfresh⟩
  · have hkept := loadRewrite_kept hf' c.now
    split
    · exact hkept
    · refine ⟨hkept, fun hdb => ?_⟩
      exact requestAuthority_congr (hfresh ((loadRewrite_kept (.refl f') c.now).db_none.mp hdb))

/-! ## The store a handler works on -/

/-- A store is the database that was there, or a fresh one where nothing was. -/
theorem v3Store_ok {fresh : String} {create : Bool} {f' : LibFiles} (hlog : f.log = none)
    (hs : v3Store f token fresh create = .ok (some (f', db))) :
    (authority f = .v3 ∧ f' = published f ∧ f.db = some db) ∨
      (authority f = .v2 ∧ create = true ∧ db = freshDb token none fresh ∧
        f' = { f with formatV3 := true, db := some db }) := by
  unfold v3Store at hs
  split at hs
  · cases hs
  · rename_i hauth
    obtain ⟨d, hd, hs⟩ := Except.bind_ok.mp hs
    cases hs
    refine .inl ⟨hauth, rfl, ?_⟩
    unfold existingLibrary at hd
    split at hd
    · cases hd
    · split at hd <;> cases hd
      assumption
  · rename_i hauth
    rw [hlog] at hs
    cases create with
    | false => cases hs
    | true =>
      cases hs
      exact .inr ⟨hauth, rfl, rfl, by rw [hlog]⟩

theorem libraryStore_ends (h : Visitor f) (token : Hash) (fresh : String) :
    (libraryStore f token fresh).Ends LeavesVisitor (fun x => Visitor x.1 ∧ x.1.db = some x.2) := by
  unfold libraryStore
  split
  · exact h
  · exact h
  · rename_i store hs
    rcases v3Store_ok h.log hs with ⟨-, hf, hdb⟩ | ⟨-, hcreate, -⟩
    · exact ⟨hf ▸ h.published, hf ▸ hdb⟩
    · cases hcreate

theorem writerStore_ends (h : Visitor f) (c : Call) (token : Hash) :
    (writerStore cfg f c token).Ends LeavesVisitor (fun x => Visitor x.1 ∧ x.1.db = some x.2) := by
  unfold writerStore
  refine (libraryStore_ends h token c.fresh).bind fun x hx => ?_
  refine (unlocked_ends (fun _ => hx.1) c.lockVoid).bind fun f' hf' => ?_
  have hvisitor := hf'.visitor hx.1
  split
  · exact hvisitor
  · rename_i db hdb
    refine (reading_ends (fun _ => hvisitor) _).bind fun protocol _ => ?_
    exact (requestAuthority_ends (fun _ => hvisitor) c _).bind fun _ _ => ⟨hvisitor, hdb⟩

/-! ## Rewrites and members -/

theorem rewrite_keeps {base : ℕ} {rows : List RewriteRow} {wireMin liveCap : ℕ} {fresh : String}
    {p : Protocol} (h : rewrite db base rows wireMin liveCap fresh = .ok (db', p)) :
    db'.token = db.token ∧ db'.visitor = db.visitor := by
  obtain ⟨prepared, liveBytes, index, migration, -, -, -, -, -, rfl, -⟩ := rewrite_ok h
  exact ⟨rfl, rfl⟩

section

variable (h : Visitor f) (r : RewriteRequest) (token)
include h

theorem namedStage_ends : (namedStage f r).Ends LeavesVisitor (fun x => Visitor x.1 ∧ x.1.db = f.db) := by
  obtain ⟨stage, hstage⟩ := loadRewrite_stage f r.now
  have hkept := h.setStage stage
  unfold namedStage
  dsimp only
  rw [hstage]
  split
  · exact hkept
  · split
    · exact ⟨hkept, rfl⟩
    · exact hkept

theorem rewriteOpen_ends : (rewriteOpen cfg f r token).Ends LeavesVisitor LeavesVisitor := by
  unfold rewriteOpen
  refine (writerStore_ends h r.toCall token).bind fun x hx => ?_
  have hkept := (loadRewrite_kept (.refl x.1) r.now).visitor hx.1
  dsimp only
  split
  · exact hkept
  · exact hkept.setStage _

theorem rewriteRows_ends : (rewriteRows cfg f r token).Ends LeavesVisitor LeavesVisitor := by
  unfold rewriteRows
  refine (writerStore_ends h r.toCall token).bind fun x hx => ?_
  dsimp only
  split
  · exact hx.1
  · refine (namedStage_ends hx.1 r).bind fun y hy => ?_
    refine (reading_ends (fun _ => hy.1) _).bind fun visitor _ => ?_
    split
    · exact hy.1
    · exact hy.1.setStage _

theorem rewriteCommit_ends : (rewriteCommit cfg f r token).Ends LeavesVisitor LeavesVisitor := by
  unfold rewriteCommit
  split
  · exact h
  · refine (writerStore_ends h r.toCall token).bind fun x hx => ?_
    refine (namedStage_ends hx.1 r).bind fun y hy => ?_
    dsimp only
    split
    · exact hy.1
    · split
      · exact hy.1
      · -- the rows are replaced, the credentials and the mark stay
        rename_i db' protocol hrewrite
        obtain ⟨htoken, hmark⟩ := rewrite_keeps hrewrite
        have hset := hy.1.setDb db' (hy.2.trans hx.2) htoken (hmark ▸ fun hv => hv)
        split
        · exact hset y.1.stage
        · exact hset none

theorem rewriteAbort_ends : (rewriteAbort cfg f r token).Ends LeavesVisitor LeavesVisitor := by
  unfold rewriteAbort
  refine (writerStore_ends h r.toCall token).bind fun x hx => ?_
  exact (namedStage_ends hx.1 r).bind fun y hy => hy.1.setStage none

end

theorem registerMember_keeps {cached : Option Hash} {member : Hash} {new : Bool}
    (h : registerMember db cached member = .ok (db', new)) : db'.token = db.token ∧ db'.visitor = db.visitor := by
  unfold registerMember at h
  split at h
  · cases h
  split at h
  · split at h <;> cases h
    exact ⟨rfl, rfl⟩
  · obtain ⟨migration, -, h⟩ := Except.bind_ok.mp h
    cases h
    exact ⟨rfl, rfl⟩

theorem registerMemberRequest_ends (h : Visitor f) (c : Call) (token : Hash) :
    (registerMemberRequest cfg f c token).Ends LeavesVisitor LeavesVisitor := by
  unfold registerMemberRequest
  split
  · exact h
  split
  · exact h
  refine (writerStore_ends h c token).bind fun x hx => ?_
  dsimp only
  split
  · exact hx.1
  · exact hx.1
  · exact hx.1
  · rename_i db' new hreg
    obtain ⟨htoken, hmark⟩ := registerMember_keeps hreg
    exact hx.1.setDb db' hx.2 htoken (hmark ▸ fun hv => hv) x.1.stage

/-! ## Batches before their store -/

theorem isPartOfAReset_ends (h : ∀ reply, E (f, reply)) (r : BatchRequest) (isStart : Bool) :
    (isPartOfAReset cfg files f r isStart).Ends E (fun _ => True) := by
  unfold isPartOfAReset
  split
  · exact (reading_ends h _).bind fun _ _ => trivial
  · trivial

/-- What the first batch of a library was checked for before its store was made. -/
structure FirstOK (r : BatchRequest) (firstMin : ℕ) : Prop where
  wire : 3 ≤ firstMin → firstMin ≤ r.wire.getD 0
  fits : ∀ w ∈ r.writes, valueFits w.value firstMin = true

/-- A first minimum the batch is held to, and no lower than the one inherited. -/
def FirstMinOK (cfg : Config) (files : Files) (r : BatchRequest) (firstMin : ℕ) : Prop :=
  FirstOK r firstMin ∧
    ∀ inherited, memberWireMinimum cfg files r.id r.member = .ok (some inherited) → inherited ≤ firstMin

section

variable (h : ∀ reply, E (f, reply))
include h

theorem newLibraryChecks_ends (r : BatchRequest) :
    (newLibraryChecks cfg files f r).Ends E (FirstMinOK cfg files r) := by
  unfold newLibraryChecks
  refine (reading_ends h _).bind fun inherited hinherited => ?_
  dsimp only
  split
  · exact h _
  · rename_i hwire
    split
    · exact h _
    · rename_i hfits
      refine ⟨⟨fun h3 => not_lt.mp fun hlt => hwire ⟨h3, hlt⟩, fun w hw => ?_⟩, fun minimum hminimum => ?_⟩
      · by_contra hbad
        exact hfits (List.any_eq_true.mpr ⟨w, hw, by simpa using hbad⟩)
      · obtain rfl : inherited = some minimum := Except.ok.inj (hinherited.symm.trans hminimum)
        exact le_max_right _ _

theorem newLibraryGate_ends (r : BatchRequest) (token : Hash) (partOfAReset : Bool) :
    (newLibraryGate cfg files f r token partOfAReset).Ends E (fun _ => True) := by
  unfold newLibraryGate
  refine (reading_ends h _).bind fun held _ => ?_
  split
  · exact h _
  · split <;> first | trivial | exact h _

theorem firstMinimum_ends (r : BatchRequest) (token : Hash) (partOfAReset : Bool) :
    (firstMinimum cfg files f r token partOfAReset).Ends E (fun firstMin =>
      (newLibrary f = true → FirstMinOK cfg files r firstMin) ∧
        (newLibrary f = false → firstMin = r.requestedMin.getD 2)) := by
  unfold firstMinimum
  split
  · rename_i hnew
    refine (newLibraryChecks_ends h r).bind fun firstMin hfirst => ?_
    refine (newLibraryGate_ends h r token partOfAReset).bind fun _ _ => ⟨fun _ => hfirst, fun hold => ?_⟩
    cases hnew.symm.trans hold
  · rename_i hnew
    exact ⟨fun h' => absurd h' hnew, fun _ => rfl⟩

theorem startUnderVisitors_ends (r : BatchRequest) (token : Hash) (partOfAReset : Bool) :
    (startUnderVisitors cfg files f r token partOfAReset).Ends E
      (fun mark => ∃ v, proofTier cfg files r.id r.member = .ok v ∧
      mark = (v && !cfg.reservedFor r.id token)) := by
  unfold startUnderVisitors
  refine (reading_ends h _).bind fun visitor hvisitor => ?_
  split
  · exact h _
  · exact ⟨visitor, hvisitor, rfl⟩

theorem batchPlan_ends (r : BatchRequest) (token : Hash) :
    (batchPlan cfg files f r token).Ends E (fun plan =>
      plan.selectedV3 = decide (authority f = .v3) ∧
      (newLibrary f = true → FirstMinOK cfg files r plan.firstMin) ∧
      (newLibrary f = false → plan.firstMin = r.requestedMin.getD 2) ∧
      (newLibrary f = true → cfg.newLibraries = .visitors →
        ∃ v, proofTier cfg files r.id r.member = .ok v ∧ plan.mark = (v && !cfg.reservedFor r.id token))) := by
  unfold batchPlan
  refine (reading_ends h _).bind fun protocol _ => ?_
  refine (isPartOfAReset_ends h r _).bind fun part _ => ?_
  refine (firstMinimum_ends h r token part).bind fun firstMin hfirst => ?_
  unfold startMark
  split
  · exact (startUnderVisitors_ends h r token part).bind fun mark hmark =>
      ⟨rfl, hfirst.1, hfirst.2, fun _ _ => hmark⟩
  · rename_i hstart
    refine ⟨rfl, hfirst.1, hfirst.2, fun hnew hmode => absurd ⟨?_, hmode⟩ hstart⟩
    simp [starting, hnew]

end

/-! ## Batches on their store -/

theorem applyTiered_keeps {writes : List Write} {liveCap wireMin : ℕ} {tier : VisitorTier}
    {authority : WriteAuthority} {result : BatchResult}
    (h : applyTiered db writes liveCap wireMin tier authority = .ok (db', result)) :
    db'.token = db.token ∧ (db.visitor.isSome → db'.visitor.isSome) := by
  obtain ⟨a, pass, index, migration, -, -, -, -, rfl, -⟩ := applyTiered_ok h
  refine ⟨rfl, fun hv => ?_⟩
  simp only [batchCommit]
  split
  · rfl
  · exact hv

/-- A batch on a library that is there keeps it a visitor's. -/
theorem batchApply_existing (h : Visitor f) (hdb : f.db = some db) (r : BatchRequest) (plan : BatchPlan) :
    (batchApply cfg f db r plan).Ends LeavesVisitor LeavesVisitor := by
  unfold batchApply
  split
  · exact h
  refine (reading_ends (fun _ => h) _).bind fun protocol _ => ?_
  refine (requestAuthority_ends (fun _ => h) r.toCall _).bind fun _ _ => ?_
  dsimp only
  split
  · exact h
  · rename_i db' result happly
    obtain ⟨htoken, hmark⟩ := applyTiered_keeps happly
    have hset := h.setDb db' hdb htoken hmark f.stage
    split <;> exact hset

/-- A first batch is held to the minimum it sets. -/
theorem freshDb_checks (token : Hash) (fresh : String) {writes : List Write} {firstMin : ℕ} {wire : Option ℕ}
    (hwrites : parseWrites writes = true) (hwire : 3 ≤ firstMin → firstMin ≤ wire.getD 0)
    (hfits : ∀ w ∈ writes, valueFits w.value firstMin = true) :
    batchChecks (freshDb token none fresh) writes firstMin ⟨wire, wire.map fun _ => fresh⟩ =
      .ok ⟨fresh, 0, 2, max 2 firstMin⟩ := by
  simp only [parseWrites, Bool.and_eq_true, decide_eq_true_eq] at hwrites
  obtain ⟨⟨⟨-, hlength⟩, hkeys⟩, -⟩ := hwrites
  have hmin : effectiveMin 0 2 firstMin = max 2 firstMin := rfl
  -- below 4 every minimum has the same cap, so raising the minimum to 2 asks nothing more
  have hfits' : writes.any (fun w => !valueFits w.value (max 2 firstMin)) = false := by
    rw [List.any_eq_false]
    intro w hw
    have := hfits w hw
    unfold valueFits at this ⊢
    by_cases h4 : firstMin < 4
    · rw [if_pos h4] at this
      rw [if_pos (by omega)]
      simpa using this
    · rw [if_neg h4] at this
      rw [if_neg (by omega)]
      simpa using this
  have hbad : ¬ (MAX_WRITES < writes.length ∨ ¬ validKeys (writes.map Cas.Write.key)) := by
    rw [not_or, not_lt, not_not]
    exact ⟨hlength, hkeys⟩
  unfold batchChecks
  rw [if_neg hbad]
  simp only [freshDb, Db.empty, Option.isSome_none, Bool.false_eq_true, if_false, Option.getD_some, hmin]
  rw [if_neg (by omega), hfits']
  cases wire <;> simp

/-! ## Starting a library -/

/-- The writes that can land in a library with no rows. -/
def firstRows (writes : List Write) : List Write := writes.filter fun w => w.base = 0

/-- A batch that lands a row in a visitor's new library: it writes one that was never there, its new rows are
within the visitor's limits, and the disk does not fail between making the database and the commit. -/
def Lands (cfg : Config) (r : BatchRequest) : Prop :=
  firstRows r.writes ≠ [] ∧ (firstRows r.writes).length ≤ min MAX_ROWS cfg.visitorLibraryMaxRows ∧
    writtenBytes (firstRows r.writes) ≤ min cfg.storedBytes cfg.visitorLibraryMaxBytes ∧ r.fault ≠ .created

instance (cfg : Config) (r : BatchRequest) : Decidable (Lands cfg r) :=
  inferInstanceAs (Decidable (_ ∧ _ ∧ _ ∧ _))

theorem landing_bare (writes : List Write) : landing (Cas.State.bare 0) writes = firstRows writes := by
  unfold landing firstRows
  congr 1
  funext w
  show decide (0 = w.base) = _
  exact decide_eq_decide.mpr eq_comm

/-- **A first batch that lands marks its library**, whatever becomes of its answer. -/
theorem batchApply_new {r : BatchRequest} {plan : BatchPlan} (hlog : f.log = none)
    (hwrites : parseWrites r.writes = true) (hauth : requestAuthority cfg f r.toCall none = .ok ())
    (hv3 : plan.selectedV3 = false)
    (hmark : plan.mark = true) (hfirst : FirstOK r plan.firstMin) (hlands : Lands cfg r) :
    (batchApply cfg f (freshDb token none r.fresh) r plan).Ends LeavesVisitor LeavesVisitor := by
  obtain ⟨hrow, hrows, hbytes, hfault⟩ := hlands
  have hprotocol : readProtocol (freshDb token none r.fresh) = .ok ⟨0, 2, r.fresh, 0⟩ := rfl
  have hchecks := freshDb_checks token r.fresh hwrites hfirst.wire hfirst.fits
  have hcaps : caps (freshDb token none r.fresh) 0 cfg.storedBytes (visitorTier cfg plan.mark) =
      (min cfg.storedBytes cfg.visitorLibraryMaxBytes, min MAX_ROWS cfg.visitorLibraryMaxRows) := by
    simp [caps, visitorTier, hmark]
  have hmaxwrites : r.writes.length ≤ MAX_WRITES := (batchChecks_ok hchecks).1
  have hfilter : (firstRows r.writes).length ≤ r.writes.length := List.length_filter_le _ _
  have hcap := cfg.storedBytes_lt
  obtain ⟨db', result, happly, -, -, hvisitor⟩ := applyTiered_succeeds cfg.storedBytes (visitorTier cfg plan.mark)
    (freshDb_holds token none r.fresh) hchecks
    (by
      have : MAX_WRITES ≤ MAX_SEQUENCE := by decide
      rw [landing_bare]
      show 0 + _ ≤ _
      omega)
    (by rw [hcaps]; show min _ _ < _; omega)
    (by
      rw [hcaps, landing_bare]
      show 0 + _ ≤ _
      omega)
    (by
      rw [hcaps, landing_bare]
      show 0 + _ ≤ _
      omega)
    (show 0 < MAX_SAFE_INTEGER by decide)
  have hset : Visitor { f with db := some db' } := by
    refine ⟨hlog, fun d hd => ?_⟩
    obtain rfl : db' = d := Option.some.inj hd
    refine ⟨(applyTiered_keeps happly).1 ▸ rfl, ?_⟩
    rw [hvisitor rfl hmark (by rwa [landing_bare])]
    rfl
  unfold batchApply
  rw [if_neg hfault, hprotocol]
  simp only [reading, Except.ok_bind, hv3, Bool.false_eq_true, if_false, hauth, if_true, happly]
  split <;> exact hset

/-! ## Steps and runs -/

/-- A library that was just made for a batch which will mark it. -/
structure Between (cfg : Config) (p : Pending) (f : LibFiles) : Prop where
  log : f.log = none
  db : ∃ token, f.db = some (freshDb token none p.request.fresh)
  writes : parseWrites p.request.writes = true
  authority : requestAuthority cfg f p.request.toCall none = .ok ()
  mark : p.plan.mark = true
  first : FirstOK p.request p.plan.firstMin

/-- A visitor's library, or one that the batch in flight will make one. -/
def Isolated (cfg : Config) (f : LibFiles) : Option Pending → Prop
  | none => Visitor f
  | some p => if p.starts then Between cfg p f else Visitor f ∧ f.db.isSome

theorem Isolated.visitor {pending : Option Pending} (h : Isolated cfg f pending)
    (hsettled : ∀ p ∈ pending, p.starts = false) : Visitor f := by
  cases pending with
  | none => exact h
  | some p =>
    have hidle : p.starts = false := hsettled p rfl
    rw [Isolated, hidle] at h
    exact h.1

/-- **A batch up to its store** finds a visitor's library, or makes one that it will mark. -/
theorem batchStore_ends {g : LibFiles} {r : BatchRequest} (hmode : cfg.newLibraries = .visitors) (hg : Visitor g)
    (h : Admitted cfg r.toCall g f) (hreserved : cfg.reservedFor r.id token = false)
    (htier : newLibrary g = true → ∀ v, proofTier cfg files r.id r.member = .ok v → v = true) :
    (batchStore cfg files f r token).Ends LeavesVisitor (fun x => Isolated cfg x.1 (some ⟨r, x.2.2⟩)) := by
  have hvisitor := h.visitor hg
  unfold batchStore
  split
  · exact hvisitor
  split
  · exact hvisitor
  rename_i hwrites
  split
  · exact hvisitor
  have hpub := hvisitor.published
  refine (batchPlan_ends (fun _ => hpub) r token).bind fun plan hplan => ?_
  obtain ⟨hsel, hfirst, -, hmark⟩ := hplan
  split
  · exact hpub
  · exact hpub
  · rename_i f' db hstore
    rcases v3Store_ok hpub.log hstore with ⟨hv3, rfl, hdb⟩ | ⟨hv2, -, rfl, rfl⟩
    · have hstarts : Pending.starts ⟨r, plan⟩ = false := by simp [Pending.starts, hsel, hv3]
      rw [Except.ends_ok, Isolated, hstarts]
      exact ⟨hpub.published, by rw [show (published (published f)).db = some db from hdb]; rfl⟩
    · -- nothing was there: the batch starts the library
      have hauth : authority f = .v2 := by rw [← hv2, authority_published]
      have hnew : newLibrary (published f) = true := by simp [newLibrary, hv2, hpub.log]
      have hnew' : newLibrary g = true := by simp [newLibrary, ← h.authority, hauth, hg.log]
      obtain ⟨v, hv, hmark⟩ := hmark hnew hmode
      have hstarts : Pending.starts ⟨r, plan⟩ = true := by simp [Pending.starts, hsel, hv2]
      rw [Except.ends_ok, Isolated, hstarts]
      refine ⟨hpub.log, ⟨token, rfl⟩, by simpa using hwrites, ?_, ?_, (hfirst hnew).1⟩
      · exact requestAuthority_congr (h.unwritten (db_none_of_v2 hvisitor.log hauth))
      · rw [hmark, htier hnew' v hv, hreserved]
        rfl

/-- **A transaction** leaves a visitor's library, if it lands a row in one that was just made. -/
theorem Isolated.commit {p : Pending} (h : Isolated cfg f (some p)) (hdb : f.db = some db)
    (hlands : p.starts = true → Lands cfg p.request) :
    (batchApply cfg f db p.request p.plan).Ends LeavesVisitor LeavesVisitor := by
  rw [Isolated] at h
  split at h
  · rename_i hstarts
    obtain ⟨token, hfresh⟩ := h.db
    obtain rfl := Option.some.inj (hdb.symm.trans hfresh)
    exact batchApply_new h.log h.writes h.authority (by simpa [Pending.starts] using hstarts) h.mark h.first
      (hlands hstarts)
  · exact batchApply_existing h.1 hdb p.request p.plan

/-- The proofs of a caller who holds no household's library: of libraries that were not there at the start, or
that are not a household's. -/
def PresentsNoHousehold (cfg : Config) (start : Files) (s : Host) : HostEvent → Prop
  | .request (.batch r) =>
    ∀ proof ∈ r.member, (start proof.1).Unstarted ∨ isHouseholdMember cfg s.files (some proof) = false
  | _ => True

/-- A library that a batch starts gets a row by it, and until then no other batch that starts a library presents
its proof. -/
def StartLands (cfg : Config) (s : Host) : HostEvent → Prop
  | .request (.batch r) =>
    newLibrary (s.files r.id) = true → ∀ proof ∈ r.member, ∀ p ∈ s.pending proof.1, p.starts = false
  | .request _ => True
  | .commit id => ∀ p ∈ s.pending id, p.starts = true → Lands cfg p.request
  | .drop id => ∀ p ∈ s.pending id, p.starts = false

instance (cfg : Config) (start : Files) (s : Host) :
    DecidablePred (PresentsNoHousehold cfg start s) := fun e => by
  unfold PresentsNoHousehold
  split <;> infer_instance

instance (cfg : Config) (s : Host) : DecidablePred (StartLands cfg s) := fun e => by
  unfold StartLands
  split <;> infer_instance

/-- Every library that was not there at the start is a visitor's, or about to be. -/
def AllVisitors (cfg : Config) (start : Files) (s : Host) : Prop :=
  ∀ id, (start id).Unstarted → Isolated cfg (s.files id) (s.pending id)

/-- A proof of a visitor's library starts a visitor's. -/
theorem proofTier_visitor {start : Files} {id : String} {member : Option Proof}
    (h : ∀ proof ∈ member, (start proof.1).Unstarted → Visitor (files proof.1))
    (hproof : ∀ proof ∈ member, (start proof.1).Unstarted ∨ isHouseholdMember cfg files (some proof) = false)
    {v : Bool} (hv : proofTier cfg files id member = .ok v) : v = true := by
  unfold proofTier at hv
  obtain ⟨held, hheld, hv⟩ := Except.bind_ok.mp hv
  split at hv
  · rename_i other token _
    simp only [holdsAnother] at hheld
    split at hheld
    · cases hheld
    · rename_i hshape
      rcases hproof _ rfl with hstart | hhousehold
      · rw [(h _ rfl hstart).libraryIsVisitor hheld] at hv
        exact (Except.ok.inj hv).symm
      · by_contra hne
        rw [Bool.not_eq_true] at hne
        rw [not_or, not_or, not_not, not_not] at hshape
        rw [← Bool.not_eq_true, isHouseholdMember_iff] at hhousehold
        exact hhousehold ⟨hshape.2.1, hshape.2.2, hheld, hne ▸ hv⟩
  · exact (Except.ok.inj hv).symm

theorem finished_ends {P : LibFiles → Prop} {x : Handling (LibFiles × Reply)}
    (h : x.Ends (fun e => P e.1) (fun e => P e.1)) : P (finished x).1 := by
  cases x with
  | ok => exact h
  | error => exact h

/-- **Rule of an admitted request**: what a refusal before the handler leaves, and what the handler does. -/
theorem admitted_leaves {P : LibFiles → Prop} (f : LibFiles) (c : Call) (rewriting : Bool)
    {handler : LibFiles → Hash → Handling (LibFiles × Reply)} (hkept : ∀ f', Kept f f' → P f')
    (hhandler : ∀ f' token, Admitted cfg c f f' → (handler f' token).Ends (fun e => P e.1) (fun e => P e.1)) :
    P (admitted cfg f c rewriting handler).1 :=
  finished_ends (((admission_ends f c rewriting).imp (fun e => hkept e.1) fun _ hx => hx).bind
    fun x hx => hhandler x.1 x.2 hx)

/-- **A request other than a batch keeps a visitor's library one.** -/
theorem handle_visitor (h : Visitor f) {r : Request} (hr : ∀ b, r ≠ .batch b) :
    Visitor (handle cfg files f r).1 := by
  have hkept : ∀ f', Kept f f' → Visitor f' := fun _ hf' => hf'.visitor h
  cases r with
  | batch b => exact absurd rfl (hr b)
  | rewriteOpen r =>
    exact admitted_leaves f _ _ hkept fun f' token hf' => rewriteOpen_ends token (hkept f' hf'.1) r
  | rewriteRows r =>
    exact admitted_leaves f _ _ hkept fun f' token hf' => rewriteRows_ends token (hkept f' hf'.1) r
  | rewriteCommit r =>
    exact admitted_leaves f _ _ hkept fun f' token hf' => rewriteCommit_ends token (hkept f' hf'.1) r
  | rewriteAbort r =>
    exact admitted_leaves f _ _ hkept fun f' token hf' => rewriteAbort_ends token (hkept f' hf'.1) r
  | registerMember c =>
    exact admitted_leaves f _ _ hkept fun f' token hf' => registerMemberRequest_ends (hkept f' hf'.1) c token
  | retire => exact ⟨rfl, fun db hdb => by cases hdb⟩

variable {start : Files} {s : Host}

/-- A step that changes one library leaves the others as they were. -/
theorem AllVisitors.update (h : AllVisitors cfg start s) {id : String} {f : LibFiles} {pending : Option Pending}
    (hid : (start id).Unstarted → Isolated cfg f pending) :
    AllVisitors cfg start ⟨Function.update s.files id f, Function.update s.pending id pending⟩ := by
  intro id' hid'
  by_cases heq : id' = id
  · subst heq
    simpa using hid hid'
  · simpa [heq] using h id' hid'

/-- A request to a library that no batch has the lock of. -/
theorem AllVisitors.request (hmode : cfg.newLibraries = .visitors)
    (hreserved : ∀ id token, (start id).Unstarted → cfg.reservedFor id token = false)
    (h : AllVisitors cfg start s)
    {r : Request} (hfree : s.pending r.id = none) (hpresents : PresentsNoHousehold cfg start s (.request r))
    (hlands : StartLands cfg s (.request r)) : AllVisitors cfg start (s.step cfg (.request r)) := by
  have hvisitor : (start r.id).Unstarted → Visitor (s.files r.id) := fun hid => by
    have := h r.id hid
    rwa [hfree] at this
  have hfiles : ∀ f, ((start r.id).Unstarted → Visitor f) →
      AllVisitors cfg start { s with files := Function.update s.files r.id f } := by
    intro f hf
    have hsame : s.pending = Function.update s.pending r.id none := by rw [← hfree, Function.update_eq_self]
    rw [hsame]
    exact h.update hf
  cases r with
  | batch b =>
    have hends : (start b.id).Unstarted → (admission cfg (s.files b.id) b.toCall false >>=
        fun x => batchStore cfg s.files x.1 b x.2).Ends LeavesVisitor
          (fun x => Isolated cfg x.1 (some ⟨b, x.2.2⟩)) := by
      intro hid
      have hstart := hvisitor hid
      refine ((admission_ends _ _ _).imp (fun e he => he.visitor hstart) fun _ hx => hx).bind fun x hx => ?_
      refine batchStore_ends hmode hstart hx (hreserved _ _ hid) fun hnew v hv => ?_
      refine proofTier_visitor (fun proof hproof hun => ?_) hpresents hv
      exact (h proof.1 hun).visitor (hlands hnew proof hproof)
    dsimp only [Host.step]
    rw [if_neg (by simp [hfree])]
    split
    · rename_i f reply hrefused
      refine hfiles f fun hid => ?_
      have := hends hid
      rwa [hrefused] at this
    · rename_i f db plan hstored
      refine h.update fun hid => ?_
      have := hends hid
      rwa [hstored] at this
  | rewriteOpen | rewriteRows | rewriteCommit | rewriteAbort | registerMember | retire =>
    dsimp only [Host.step]
    rw [if_neg (by simp [hfree])]
    exact hfiles _ fun hid => handle_visitor (hvisitor hid) fun b => by simp

/-- **Each step keeps the caller's libraries visitors'.** -/
theorem AllVisitors.step (hmode : cfg.newLibraries = .visitors)
    (hreserved : ∀ id token, (start id).Unstarted → cfg.reservedFor id token = false)
    (h : AllVisitors cfg start s)
    {e : HostEvent} (hpresents : PresentsNoHousehold cfg start s e) (hlands : StartLands cfg s e) :
    AllVisitors cfg start (s.step cfg e) := by
  cases e with
  | request r =>
    cases hpending : s.pending r.id with
    | none => exact h.request hmode hreserved hpending hpresents hlands
    | some p => simpa [Host.step, hpending] using h
  | commit id =>
    rw [Host.step]
    split
    · rename_i p db hpending hdb
      refine h.update fun hid => ?_
      have hisolated := h id hid
      rw [hpending] at hisolated
      exact finished_ends (hisolated.commit hdb (hlands p hpending))
    · exact h
  | drop id =>
    have hsame : s.files = Function.update s.files id (s.files id) := (Function.update_eq_self id s.files).symm
    rw [Host.step, hsame]
    exact h.update fun hid => (h id hid).visitor hlands

/-! A server with no library on it, and the batches of a caller without a proof. -/

def sampleConfig : Config where
  newLibraries := .visitors
  storedBytes := 1000
  visitorLibraryMaxBytes := 500
  visitorLibraryMaxRows := 2
  storeGeneration := "s"
  sha256 := fun token => BitVec.ofNat 256 token.length
  reservedFor := fun _ _ => false
  storedBytes_lt := by decide

def noLibraries : Files := fun _ => .absent

def firstLibrary : String := "aaaaaaaaaaaaaaaa"
def secondLibrary : String := "bbbbbbbbbbbbbbbb"
def thirdLibrary : String := "dddddddddddddddd"

/-- One row of the caller's, at a base, under a proof. -/
def sampleBatch (id : String) (base : ℕ) (member : Option Proof) : HostEvent :=
  .request (.batch {
    id := id, token := some "token", wire := none, generation := none, member := member, now := 0, fresh := "g"
    lockVoid := false, fault := .none, requestedMin := none, writes := [⟨"cccccccccccccccc", base, "value"⟩]
    declared := false, limited := none })

/-- A batch made only of conflicts starts a library, and its proof another with a row. -/
def unlandedStart : List HostEvent :=
  [sampleBatch firstLibrary 1 none, .commit firstLibrary,
    sampleBatch secondLibrary 0 (some (firstLibrary, "token")), .commit secondLibrary]

/-- Two batches start a library each, the second with the proof of the first's before that has its row. -/
def overlappingStarts : List HostEvent :=
  [sampleBatch firstLibrary 0 none, sampleBatch secondLibrary 0 (some (firstLibrary, "token")),
    .commit firstLibrary, .commit secondLibrary]

/-- A batch made only of conflicts starts a library that is nobody's visitor, and its proof starts another that
holds a row and is nobody's visitor either. And where two starts overlap that both land a row, the second library
is nobody's visitor, though the first is one. -/
theorem unlanded_start_is_household :
    (∀ id, (noLibraries id).Unstarted) ∧
      Run.Meets (Host.step sampleConfig) (PresentsNoHousehold sampleConfig noLibraries) (.idle noLibraries)
      unlandedStart ∧ (∀ id ∈ [firstLibrary, secondLibrary],
        isHouseholdMember sampleConfig (Run.exec (Host.step sampleConfig) (.idle noLibraries) unlandedStart).files
            (some (id, "token")) = true ∧
          withCurrentHouseholdMember sampleConfig
            (Run.exec (Host.step sampleConfig) (.idle noLibraries) unlandedStart).files id
              (some (id, "token")) = true) ∧
      Run.Meets (Host.step sampleConfig) (PresentsNoHousehold sampleConfig noLibraries) (.idle noLibraries)
        overlappingStarts ∧
      isHouseholdMember sampleConfig
        (Run.exec (Host.step sampleConfig) (.idle noLibraries) overlappingStarts).files
        (some (secondLibrary, "token")) = true := by
  refine ⟨fun _ => ⟨rfl, rfl⟩, ?_, ?_, ?_, ?_⟩ <;> decide +kernel

/-- **Visitor isolation.** Whatever a caller without a household's proof sends, and however the two steps of their
batches interleave, no library that was not there at the start is ever a household's once it has no batch in
flight, if each batch that starts a library lands a row in it, and no other start presents the library's proof
before that. -/
theorem visitor_libraries_isolated (cfg : Config) (start : Files) (es : List HostEvent)
    (hmode : cfg.newLibraries = .visitors)
    (hreserved : ∀ id token, (start id).Unstarted → cfg.reservedFor id token = false)
    (hpresents : Run.Meets (Host.step cfg) (PresentsNoHousehold cfg start) (.idle start) es)
    (hlands : Run.Meets (Host.step cfg) (StartLands cfg) (.idle start) es) :
    ∀ id token, (start id).Unstarted → (Run.exec (Host.step cfg) (.idle start) es).pending id = none →
      isHouseholdMember cfg (Run.exec (Host.step cfg) (.idle start) es).files (some (id, token)) = false ∧
        withCurrentHouseholdMember cfg (Run.exec (Host.step cfg) (.idle start) es).files id (some (id, token)) =
          false := by
  have hstart : AllVisitors cfg start (.idle start) := fun id hid => hid.visitor
  have hall : AllVisitors cfg start (Run.exec (Host.step cfg) (.idle start) es) :=
    Run.exec_inv (P := fun s e => PresentsNoHousehold cfg start s e ∧ StartLands cfg s e)
      (fun s e h he => h.step hmode hreserved he.1 he.2) hstart (Run.meets_and.mpr ⟨hpresents, hlands⟩)
  intro id token hid hfree
  have hvisitor := hall id hid
  rw [hfree] at hvisitor
  have hnot : isHouseholdMember cfg (Run.exec (Host.step cfg) (.idle start) es).files
      (some (id, token)) = false :=
    (hvisitor.visitor fun _ h => by cases h).not_household
  refine ⟨hnot, ?_⟩
  rw [← Bool.not_eq_true, withCurrentHouseholdMember_iff, hnot]
  simp

/-- A library started with a row, a batch of conflicts on it that is dropped, a third library started meanwhile,
and a second one started with the proof of the first. -/
def sampleStarts : List HostEvent :=
  [sampleBatch firstLibrary 0 none, sampleBatch thirdLibrary 0 none, .commit firstLibrary,
    sampleBatch firstLibrary 7 none, sampleBatch secondLibrary 0 (some (firstLibrary, "token")),
    .drop firstLibrary, .commit secondLibrary, .commit thirdLibrary]

theorem visitor_libraries_isolated_sample :
    isMember sampleConfig (Run.exec (Host.step sampleConfig) (.idle noLibraries) sampleStarts).files
        (some (secondLibrary, "token")) = true ∧
      isHouseholdMember sampleConfig (Run.exec (Host.step sampleConfig) (.idle noLibraries) sampleStarts).files
        (some (secondLibrary, "token")) = false ∧
      withCurrentHouseholdMember sampleConfig
        (Run.exec (Host.step sampleConfig) (.idle noLibraries) sampleStarts).files secondLibrary
        (some (secondLibrary, "token")) = false :=
  ⟨by decide +kernel, visitor_libraries_isolated sampleConfig noLibraries _ rfl (fun _ _ _ => rfl)
    (by decide +kernel) (by decide +kernel) secondLibrary "token" ⟨rfl, rfl⟩ (by decide +kernel)⟩

end DenEdge
