import DenEdge.Base.Except
import DenEdge.Executor.Drive

/-!
# What keeps a journal valid

The check of a loaded journal is in two parts: what never changes after `start` (`validAttempt`, which is a fact
of `Journal.prepared`), and what has been recorded (`RecordOK`). Every change the executor makes of a journal in
hand leaves it `JournalOK`, so what is persisted passes its check when it is loaded again.
-/

namespace DenEdge.Executor

open DenEdge.Reset (validDigest)

variable {core : Core} {journal : Journal}

/-! ## What never changes -/

/-- An evidence as it was at the start. -/
def Evidence.fixed (evidence : Evidence) : Evidence :=
  { evidence with copiedHead := none, verified := false, oldRetired := false }

/-- The journal as it was first persisted. -/
def Journal.prepared (journal : Journal) : Journal :=
  { journal with
    profiles := journal.profiles.map Evidence.fixed
    locks := none
    successorDirectory := none
    successorHouseholdHead := none
    householdCommitted := false
    oldHouseholdRetired := false
    phase := .prepared
    pending := none }

variable {journal' : Journal}

theorem attempt_of_prepared {journal : Journal} (h : journal'.prepared = journal.prepared) :
    journal'.attempt = journal.attempt ∧ journal'.newHouseholdKey = journal.newHouseholdKey ∧
      journal'.oldHouseholdKey = journal.oldHouseholdKey := by
  have hattempt := congrArg Journal.attempt h
  have hnew := congrArg Journal.newHouseholdKey h
  have hold := congrArg Journal.oldHouseholdKey h
  exact ⟨hattempt, hnew, hold⟩

theorem validAttempt_prepared (core : Core) (journal : Journal) :
    validAttempt core journal.prepared = validAttempt core journal := by
  -- the check reads of an evidence only what `fixed` leaves
  simp only [validAttempt, Journal.prepared, List.map_map, List.all_map]
  rfl

theorem lockRequest_prepared (core : Core) (journal : Journal) :
    lockRequest core journal.prepared = lockRequest core journal := by
  simp [lockRequest, Journal.prepared, Evidence.fixed, Function.comp_def]

theorem validateLocks_prepared (core : Core) (locks : LockSet) (journal : Journal) :
    validateLocks core locks journal.prepared = validateLocks core locks journal := by
  simp only [validateLocks, lockRequest_prepared]
  rfl

theorem validateLocks_of_prepared (h : journal'.prepared = journal.prepared) (locks : LockSet) :
    validateLocks core locks journal' = validateLocks core locks journal := by
  rw [← validateLocks_prepared, h, validateLocks_prepared]

theorem validAttempt_of_prepared (h : journal'.prepared = journal.prepared) :
    validAttempt core journal' = validAttempt core journal := by
  rw [← validAttempt_prepared, h, validAttempt_prepared]

/-! ## What has been recorded -/

structure RecordOK (core : Core) (journal : Journal) : Prop where
  progress : ∀ evidence ∈ journal.profiles, validProgress evidence = true
  retiredHousehold : journal.oldHouseholdRetired = true → journal.householdCommitted = true
  retiredProfiles : ∀ evidence ∈ journal.profiles, evidence.oldRetired = true → journal.householdCommitted = true
  committedVerified : journal.householdCommitted = true → allVerified journal = true
  successorVerified : journal.successorDirectory.isSome = true → allVerified journal = true
  committedSuccessor : journal.householdCommitted = true → journal.successorDirectory.isSome = true
  head : journal.successorHouseholdHead.isSome = journal.householdCommitted
  headDigest : ∀ head, journal.successorHouseholdHead = some head → validDigest head = true
  locks : ∀ locks, journal.locks = some locks → validateLocks core locks journal = true
  successor : ∀ directory, journal.successorDirectory = some directory →
    ∃ recomputed, successorDirectory core journal = .ok recomputed ∧
      sameDirectory core directory recomputed = true
  phase : validPhase journal = true

theorem validRecord_iff : validRecord core journal = true ↔ RecordOK core journal := by
  have himp : ∀ a b : Bool, (!a || b) = true ↔ (a = true → b = true) := by decide
  have hsuccessor : ∀ directory, recomputes core journal directory = true ↔
      ∃ recomputed, successorDirectory core journal = .ok recomputed ∧
        sameDirectory core directory recomputed = true := by
    unfold recomputes
    cases successorDirectory core journal with
    | error => simp
    | ok => simp
  simp only [validRecord, Bool.and_eq_true, hsuccessor, himp, List.all_eq_true, List.any_eq_true,
    Option.all_eq_true, decide_eq_true_eq, Bool.or_eq_true, Option.isNone_iff_eq_none]
  constructor
  · rintro ⟨⟨⟨⟨⟨⟨⟨⟨⟨⟨h1, h2⟩, h3⟩, h4⟩, h5⟩, h6⟩, h7⟩, h8⟩, h9⟩, h10⟩, h11⟩
    refine ⟨h1, h2, fun evidence hmem hretired => h3 ⟨evidence, hmem, hretired⟩, h4, fun hsome => ?_,
      h6, h7, h8, h9, h10, h11⟩
    rcases h5 with hnone | hverified
    · rw [hnone] at hsome
      cases hsome
    · exact hverified
  · intro h
    refine ⟨⟨⟨⟨⟨⟨⟨⟨⟨⟨h.progress, h.retiredHousehold⟩, ?_⟩, h.committedVerified⟩, ?_⟩,
      h.committedSuccessor⟩, h.head⟩, h.headDigest⟩, h.locks⟩, h.successor⟩, h.phase⟩
    · rintro ⟨evidence, hmem, hretired⟩
      exact h.retiredProfiles evidence hmem hretired
    · cases hsome : journal.successorDirectory with
      | none => exact .inl rfl
      | some => exact .inr (h.successorVerified (by rw [hsome]; rfl))

/-- A journal the executor may persist: its check passes, and one without locks has nothing recorded. -/
structure JournalOK (core : Core) (journal : Journal) : Prop where
  attempt : validAttempt core journal = true
  record : RecordOK core journal
  unlocked : journal.locks = none → journal.phase = .prepared ∧ journal.householdCommitted = false

variable {planner : Planner}

/-- **What is `JournalOK` passes its check when it is loaded again.** -/
theorem JournalOK.validate (h : JournalOK planner.toCore journal) :
    validate planner.toCore journal = true := by
  obtain ⟨effect, hnext, -⟩ := planner.names journal h.attempt (validRecord_iff.mpr h.record)
  simp [Executor.validate, h.attempt, validRecord_iff.mpr h.record, hnext]

theorem validPhase_prepared (h : validPhase journal = true) (hphase : journal.phase = .prepared) :
    journal.pending = none := by
  unfold validPhase at h
  rw [hphase] at h
  cases hpending : journal.pending with
  | none => rfl
  | some =>
    rw [hpending] at h
    cases h

/-! ## Changes -/

theorem changeFirst_map {α : Type} (f : Evidence → α) (test : Evidence → Bool) (change : Evidence → Evidence)
    (hf : ∀ evidence, f (change evidence) = f evidence) (profiles : List Evidence) :
    (changeFirst test change profiles).map f = profiles.map f := by
  induction profiles with
  | nil => rfl
  | cons _ _ ih =>
    unfold changeFirst
    split
    · rw [List.map_cons, hf, List.map_cons]
    · rw [List.map_cons, ih, List.map_cons]

theorem changeFirst_mem {test : Evidence → Bool} {change : Evidence → Evidence} {profiles : List Evidence}
    {evidence : Evidence} (h : evidence ∈ changeFirst test change profiles) :
    evidence ∈ profiles ∨ ∃ old ∈ profiles, evidence = change old := by
  induction profiles with
  | nil => cases h
  | cons first rest ih =>
    unfold changeFirst at h
    split at h
    · rcases List.mem_cons.mp h with rfl | hrest
      · exact .inr ⟨first, by simp, rfl⟩
      · exact .inl (List.mem_cons_of_mem _ hrest)
    · rcases List.mem_cons.mp h with rfl | hrest
      · exact .inl (by simp)
      · rcases ih hrest with hold | ⟨old, hold, rfl⟩
        · exact .inl (List.mem_cons_of_mem _ hold)
        · exact .inr ⟨old, List.mem_cons_of_mem _ hold, rfl⟩

/-- An evidence but for whether its old library is retired. -/
def Evidence.unretired (evidence : Evidence) : Evidence := { evidence with oldRetired := false }

/-- The successor directory does not depend on what is retired. -/
theorem successorDirectory_congr (journal journal' : Journal)
    (hdirectory : journal'.directory = journal.directory) (hstamp : journal'.resetStamp = journal.resetStamp)
    (hprofiles : journal'.profiles.map Evidence.unretired = journal.profiles.map Evidence.unretired) :
    successorDirectory core journal' = successorDirectory core journal := by
  have hunretired : ∀ j : Journal, successorDirectory core j =
      successorDirectory core { j with profiles := j.profiles.map Evidence.unretired } := by
    intro j
    simp only [successorDirectory, List.foldlM_map, List.length_map, List.all_map]
    rfl
  rw [hunretired journal', hunretired journal]
  simp only [successorDirectory, hdirectory, hstamp, hprofiles]

/-- What is recorded of a profile is no part of what never changes. -/
theorem prepared_changeFirst (journal : Journal) (test : Evidence → Bool) (change : Evidence → Evidence)
    (hfixed : ∀ evidence, (change evidence).fixed = evidence.fixed) (phase : Phase)
    (pending : Option EffectIntent) :
    ({ journal with profiles := changeFirst test change journal.profiles, phase := phase, pending := pending } :
      Journal).prepared = journal.prepared := by
  simp only [Journal.prepared, changeFirst_map Evidence.fixed test change hfixed]

/-- What the phase says of the effect that is about to be made. -/
theorem validPhase_pending (h : validPhase journal = true) {effect : EffectIntent}
    (hpending : journal.pending = some effect) : match effect with
    | .moveProfile _ => journal.phase = .movingProfiles ∧ journal.householdCommitted = false
    | .publishHousehold => journal.phase = .publishingHousehold ∧ journal.householdCommitted = false
    | .verifyHousehold => journal.phase = .commitUnknown ∧ journal.householdCommitted = false
    | .retireProfile _ => journal.phase = .retiringOld ∧ journal.householdCommitted = true
    | .retireHousehold => journal.phase = .retiringOld ∧ journal.householdCommitted = true
    | .adoptSuccessor => journal.phase = .adopting ∧ allRetired journal = true
    | .verifyAdoption => journal.phase = .adopting ∧ allRetired journal = true := by
  unfold validPhase at h
  cases effect <;> cases hphase : journal.phase <;> rw [hphase] at h <;>
    simp_all only [Bool.and_eq_true, Bool.not_eq_true', and_self, reduceCtorEq]

theorem allRetired_iff : allRetired journal = true ↔ journal.householdCommitted = true ∧
    journal.oldHouseholdRetired = true ∧ ∀ evidence ∈ journal.profiles, evidence.oldRetired = true := by
  simp [allRetired, and_assoc]

namespace JournalOK

variable {locks : LockSet}

theorem of_locks (hattempt : validAttempt core journal = true) (hrecord : RecordOK core journal)
    (hlocks : journal.locks = some locks) : JournalOK core journal := by
  refine ⟨hattempt, hrecord, fun hnone => ?_⟩
  rw [hlocks] at hnone
  cases hnone

variable (h : JournalOK core journal)
include h

section

variable (hlocks : journal.locks = some locks)
include hlocks

/-- With locks, only the phase and the intent change. -/
theorem rephase (phase : Phase) (pending : Option EffectIntent)
    (hphase : validPhase { journal with phase := phase, pending := pending } = true) :
    JournalOK core { journal with phase := phase, pending := pending } :=
  of_locks h.attempt { h.record with phase := hphase } hlocks

omit hlocks in
theorem locked (hlocks : journal.locks = none) (hvalid : validateLocks core locks journal = true) :
    JournalOK core { journal with locks := some locks, phase := .locked } := by
  obtain ⟨hphase, hcommitted⟩ := h.unlocked hlocks
  have hpending := validPhase_prepared h.record.phase hphase
  refine of_locks h.attempt { h.record with locks := fun l hl => ?_, phase := ?_ } rfl
  · cases hl
    exact hvalid
  · simp [validPhase, hpending, hcommitted]

/-- One profile is verified. -/
theorem moved (hcommitted : journal.householdCommitted = false)
    (test : Evidence → Bool) (htest : ∀ evidence, test evidence = true → evidence.verified = false)
    (hfound : ∃ evidence ∈ journal.profiles, test evidence = true) {head : String}
    (hhead : validDigest head = true) : JournalOK core { journal with
      profiles := changeFirst test (Evidence.verifiedAt head) journal.profiles
      pending := none
      phase := .locked } := by
  have hprepared := prepared_changeFirst journal test (Evidence.verifiedAt head) (fun _ => rfl) .locked none
  -- not everything was verified, so nothing was published
  have hunverified : ¬ allVerified journal = true := by
    obtain ⟨evidence, hmem, hfound⟩ := hfound
    intro hall
    have hverified := List.all_eq_true.mp hall evidence hmem
    rw [htest evidence hfound] at hverified
    cases hverified
  have hnone : journal.successorDirectory = none := by
    rw [← Option.not_isSome_iff_eq_none]
    exact fun hsome => hunverified (h.record.successorVerified hsome)
  refine of_locks ((validAttempt_of_prepared hprepared).trans h.attempt) { h.record with
    progress := fun evidence hmem => ?_
    retiredProfiles := fun evidence hmem hretired => ?_
    committedVerified := fun hc => absurd (hcommitted.symm.trans hc) Bool.false_ne_true
    successorVerified := fun hsome => ?_
    locks := fun l hl => (validateLocks_of_prepared hprepared l).trans (h.record.locks l hl)
    successor := fun directory hdirectory => absurd (hnone.symm.trans hdirectory) (Option.some_ne_none _).symm
    phase := by simp [validPhase, hlocks, hcommitted] } hlocks
  · rcases changeFirst_mem hmem with hold | ⟨old, -, rfl⟩
    · exact h.record.progress evidence hold
    · simp [validProgress, Evidence.verifiedAt, hhead]
  · rcases changeFirst_mem hmem with hold | ⟨old, hold, rfl⟩
    · exact h.record.retiredProfiles evidence hold hretired
    · exact h.record.retiredProfiles old hold hretired
  · have hsome' : journal.successorDirectory.isSome = true := hsome
    rw [hnone] at hsome'
    cases hsome'

/-- The successor household is observed committed. -/
theorem committed {directory : Directory}
    (hsuccessor : journal.successorDirectory = some directory) {head : String} (hhead : validDigest head = true) :
    JournalOK core { journal with
      successorHouseholdHead := some head
      householdCommitted := true
      pending := none
      phase := .retiringOld } := by
  have hsome : journal.successorDirectory.isSome = true := by
    rw [hsuccessor]
    rfl
  refine of_locks h.attempt { h.record with
    retiredHousehold := fun _ => rfl
    retiredProfiles := fun _ _ _ => rfl
    committedVerified := fun _ => h.record.successorVerified hsome
    committedSuccessor := fun _ => hsome
    head := rfl
    headDigest := fun head' hhead' => ?_
    phase := rfl } hlocks
  cases hhead'
  exact hhead

/-- One old profile library is retired. -/
theorem retiredProfile (hphase : journal.phase = .retiringOld)
    (hcommitted : journal.householdCommitted = true) (test : Evidence → Bool) :
    JournalOK core { journal with
      profiles := changeFirst test Evidence.retired journal.profiles
      pending := none } := by
  have hprepared := prepared_changeFirst journal test Evidence.retired (fun _ => rfl) journal.phase none
  have hverified : allVerified ({ journal with
      profiles := changeFirst test Evidence.retired journal.profiles
      pending := none } : Journal) = true := by
    have hall := h.record.committedVerified hcommitted
    rw [allVerified, List.all_eq_true] at hall ⊢
    intro evidence hmem
    rcases changeFirst_mem hmem with hold | ⟨old, hold, rfl⟩
    · exact hall evidence hold
    · exact hall old hold
  refine of_locks ((validAttempt_of_prepared hprepared).trans h.attempt) { h.record with
    progress := fun evidence hmem => ?_
    retiredProfiles := fun _ _ _ => hcommitted
    committedVerified := fun _ => hverified
    successorVerified := fun _ => hverified
    locks := fun l hl => (validateLocks_of_prepared hprepared l).trans (h.record.locks l hl)
    successor := fun directory hdirectory => ?_
    phase := by simp [validPhase, hphase, hcommitted] } hlocks
  · rcases changeFirst_mem hmem with hold | ⟨old, hold, rfl⟩
    · exact h.record.progress evidence hold
    · exact h.record.progress old hold
  · have hsame : successorDirectory core { journal with
        profiles := changeFirst test Evidence.retired journal.profiles
        pending := none } = successorDirectory core journal :=
      successorDirectory_congr journal _ rfl rfl
        (changeFirst_map _ test Evidence.retired (fun _ => rfl) journal.profiles)
    rw [hsame]
    exact h.record.successor directory hdirectory

theorem retiredHousehold (hphase : journal.phase = .retiringOld)
    (hcommitted : journal.householdCommitted = true) :
    JournalOK core { journal with oldHouseholdRetired := true, pending := none } :=
  of_locks h.attempt { h.record with
    retiredHousehold := fun _ => hcommitted
    phase := by simp [validPhase, hphase, hcommitted] } hlocks

end

end JournalOK

/-! ## Plans -/

/-- A successor directory is the same as itself: it is in canonical form. -/
theorem successorDirectory_same {directory : Directory}
    (h : successorDirectory planner.toCore journal = .ok directory) :
    sameDirectory planner.toCore directory directory = true := by
  unfold successorDirectory at h
  obtain ⟨candidate, -, h⟩ := Except.bind_ok.mp h
  split at h
  · cases h
  rename_i checked hchecked
  split at h
  · cases h
  cases h
  obtain ⟨bytes, hbytes⟩ := Option.isSome_iff_exists.mp (planner.materializes _ _ hchecked)
  simp [sameDirectory, planner.canonical _ _ hchecked, hbytes]

theorem sameDirectory_trans {a b c : Directory} (hab : sameDirectory core a b = true)
    (hbc : sameDirectory core b c = true) : sameDirectory core a c = true := by
  unfold sameDirectory at *
  cases ha : (core.validateStored a).bind core.jcs with
  | none => simp [ha] at hab
  | some x =>
    cases hb : (core.validateStored b).bind core.jcs with
    | none => simp [ha, hb] at hab
    | some y =>
      cases hc : (core.validateStored c).bind core.jcs with
      | none => simp [hb, hc] at hbc
      | some z =>
        simp only [ha, hb, hc, decide_eq_true_eq] at hab hbc ⊢
        exact hab.trans hbc

/-- A planned journal differs from the one before it in the phase, the intent and the successor directory. -/
structure Planned (core : Core) (journal journal' : Journal) : Prop where
  ok : JournalOK core journal'
  prepared : journal'.prepared = journal.prepared
  committed : journal'.householdCommitted = journal.householdCommitted
  head : journal'.successorHouseholdHead = journal.successorHouseholdHead
  successor : successorDirectory core journal' = successorDirectory core journal
  locks : journal'.locks = journal.locks
  profiles : journal'.profiles = journal.profiles
  retired : journal'.oldHouseholdRetired = journal.oldHouseholdRetired

/-- **What is planned may be persisted.** -/
theorem plan_ok (h : JournalOK planner.toCore journal) {locks : LockSet}
    (hlocks : journal.locks = some locks) {effect : ResetEffect} (hallows : Allows journal effect)
    (hplan : plan planner.toCore journal effect = .ok journal') : Planned planner.toCore journal journal' := by
  cases effect with
  | moveLiveProfiles =>
    simp only [plan] at hplan
    split at hplan
    · cases hplan
    split at hplan
    · cases hplan
    rename_i hany
    cases hplan
    -- one profile is not verified, so the household is not committed
    have hcommitted : journal.householdCommitted = false := by
      rw [not_not, List.any_eq_true] at hany
      obtain ⟨evidence, hmem, hevidence⟩ := hany
      by_contra hc
      rw [Bool.not_eq_false] at hc
      have hall := List.all_eq_true.mp (h.record.committedVerified hc) evidence hmem
      simp [hall] at hevidence
    exact ⟨h.rephase hlocks _ _ (by simp [validPhase, hlocks, hcommitted]), rfl, rfl, rfl, rfl, rfl, rfl, rfl⟩
  | commitSuccessorHousehold =>
    obtain ⟨hverified, hcommitted⟩ := hallows
    simp only [plan] at hplan
    rw [if_neg (not_not.mpr hverified)] at hplan
    unfold intendedDirectory at hplan
    -- the directory that is recorded is the one the evidence gives
    obtain ⟨directory, hrecomputes, rfl⟩ : ∃ directory,
        (∃ recomputed, successorDirectory planner.toCore journal = .ok recomputed ∧
          sameDirectory planner.toCore directory recomputed = true) ∧
        journal' = { journal with
          successorDirectory := some directory
          phase := .publishingHousehold
          pending := some .publishHousehold } := by
      cases hsome : journal.successorDirectory with
      | some directory =>
        rw [hsome] at hplan
        cases hplan
        exact ⟨directory, h.record.successor directory hsome, rfl⟩
      | none =>
        rw [hsome] at hplan
        cases hdirectory : successorDirectory planner.toCore journal with
        | error =>
          rw [hdirectory] at hplan
          cases hplan
        | ok directory =>
          rw [hdirectory] at hplan
          cases hplan
          exact ⟨directory, ⟨directory, rfl, successorDirectory_same hdirectory⟩, rfl⟩
    refine ⟨.of_locks h.attempt { h.record with
      successorVerified := fun _ => hverified
      committedSuccessor := fun _ => rfl
      successor := fun d hd => ?_
      phase := by simp [validPhase, hcommitted] } hlocks, rfl, rfl, rfl, rfl, rfl, rfl, rfl⟩
    cases hd
    exact hrecomputes
  | retireOldLibraries =>
    simp only [plan] at hplan
    split at hplan
    · cases hplan
    rename_i hcommitted
    rw [not_or, not_not] at hcommitted
    -- the next profile that is not retired, or the household
    split at hplan <;> cases hplan
    all_goals exact ⟨h.rephase hlocks _ _ (by simp [validPhase, hcommitted.1]), rfl, rfl, rfl, rfl, rfl, rfl, rfl⟩
  | complete =>
    simp only [plan] at hplan
    split at hplan
    · cases hplan
    rename_i hretired
    cases hplan
    refine ⟨h.rephase hlocks _ _ ?_, rfl, rfl, rfl, rfl, rfl, rfl, rfl⟩
    have hretired' : allRetired { journal with phase := .adopting, pending := some .adoptSuccessor } = true :=
      not_not.mp hretired
    simpa [validPhase] using hretired'

end DenEdge.Executor
