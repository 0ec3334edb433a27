import DenEdge.Base.Program
import DenEdge.Executor.Journal

/-!
# The executor of a compound key reset

`start`, `resume` and `status` as programs over the calls of a backend. Each begins from the journal that is
loaded and makes at most one effect, whose intent was persisted by an earlier call. The journal a program has in
hand is changed before it is persisted, so what a failure leaves in hand is returned with it.
-/

namespace DenEdge.Executor

open DenEdge.Client (Stamp)
open DenEdge.Reset (validId32 validDigest)

/-! ## The backend -/

structure MoveRequest where
  attempt : String
  profile : String
  oldKey : String
  newKey : String
  locks : LockSet

structure VerifiedMove where
  profile : String
  successorLibraryId : String
  copiedHead : String

structure PublishRequest where
  attempt : String
  oldKey : String
  newKey : String
  fence : Fence
  directory : Directory
  locks : LockSet

structure ObservationRequest where
  attempt : String
  successorKey : String
  directory : Directory
  locks : LockSet

inductive Observation where
  | absent
  | unknown
  | committed (libraryId head : String) (directory : Directory)

structure AbortRequest where
  attempt : String
  household : LibraryRef

inductive AbortAnswer where
  | aborted
  | committed

structure ProfileRetirement where
  attempt : String
  profile : String
  oldKey : String
  successorLibraryId : String
  locks : LockSet

structure HouseholdRetirement where
  attempt : String
  oldKey : String
  successorLibraryId : String
  locks : LockSet

structure AdoptionRequest where
  attempt : String
  householdKey : String
  committedHead : String
  directory : Directory
  locks : LockSet

/-- What is asked of the backend. -/
inductive Call where
  | loadJournal
  | persistJournal (journal : Journal)
  | clearJournal (attempt : String)
  | acquireLocks (request : LockRequest)
  | abortReset (request : AbortRequest)
  | moveAndVerifyProfile (request : MoveRequest)
  | publishSuccessorHousehold (request : PublishRequest)
  | observeSuccessorHousehold (request : ObservationRequest)
  | retireProfileLibrary (request : ProfileRetirement)
  | retireHouseholdLibrary (request : HouseholdRetirement)
  | adoptSuccessor (request : AdoptionRequest)
  | successorIsAdopted (request : AdoptionRequest)

abbrev Call.Result : Call → Type
  | .loadJournal => Option Journal
  | .persistJournal _ => Unit
  | .clearJournal _ => Unit
  | .acquireLocks _ => LockSet
  | .abortReset _ => AbortAnswer
  | .moveAndVerifyProfile _ => VerifiedMove
  | .publishSuccessorHousehold _ => Unit
  | .observeSuccessorHousehold _ => Observation
  | .retireProfileLibrary _ => Unit
  | .retireHouseholdLibrary _ => Unit
  | .adoptSuccessor _ => Unit
  | .successorIsAdopted _ => Bool

/-- A call returns, or throws. -/
abbrev Call.Answer (c : Call) : Type := Except Failure c.Result

abbrev Executing (α : Type) : Type := Program Call Call.Answer α

/-- What a program with a journal in hand ends with: what it returns or throws, and the journal in hand. -/
abbrev Outcome (α : Type) : Type := Except Failure α × Journal

def throws {α : Type} (failure : Failure) (journal : Journal) : Executing (Outcome α) :=
  .done (.error failure, journal)

/-- A call with a journal in hand. -/
def ask {α : Type} (c : Call) (journal : Journal) (next : c.Result → Executing (Outcome α)) :
    Executing (Outcome α) :=
  .call c fun
    | .ok result => next result
    | .error failure => throws failure journal

structure Status where
  /-- `none` is an attempt that is over, its journal gone. -/
  phase : Option Phase
  verifiedProfiles : ℕ
  profileCount : ℕ

def statusOf (journal : Journal) : Status :=
  ⟨some journal.phase, (journal.profiles.filter Evidence.verified).length, journal.profiles.length⟩

/-! ## One effect -/

def Evidence.verifiedAt (head : String) (evidence : Evidence) : Evidence :=
  { evidence with copiedHead := some head, verified := true }

def Evidence.retired (evidence : Evidence) : Evidence := { evidence with oldRetired := true }

/-- Change the first evidence a test finds. -/
def changeFirst (test : Evidence → Bool) (change : Evidence → Evidence) : List Evidence → List Evidence
  | [] => []
  | evidence :: rest =>
    if test evidence then change evidence :: rest else evidence :: changeFirst test change rest

def adoptionRequest (journal : Journal) (locks : LockSet) : Option AdoptionRequest :=
  match journal.successorHouseholdHead, journal.successorDirectory with
  | some head, some directory =>
    if allRetired journal then some ⟨journal.attempt, journal.newHouseholdKey, head, directory, locks⟩ else none
  | _, _ => none

/-- Persist the journal in hand and return. -/
def persist (journal : Journal) : Executing (Outcome Unit) :=
  ask (.persistJournal journal) journal fun _ => .done (.ok (), journal)

variable (core : Core)

def performMove (profile : String) (journal : Journal) (locks : LockSet) : Executing (Outcome Unit) :=
  let mine := fun p : Evidence => p.profile = profile && !p.verified
  match journal.profiles.find? mine with
  | none => throws (.reset .corruptJournal) journal
  | some evidence =>
    ask (.moveAndVerifyProfile ⟨journal.attempt, profile, evidence.oldKey, evidence.newKey, locks⟩) journal
      fun verified =>
      if verified.profile ≠ profile ∨ verified.successorLibraryId ≠ core.libraryId evidence.newKey ∨
          ¬ validDigest verified.copiedHead then
        throws (.reset .invalidProfileVerification) journal
      else persist { journal with
        profiles := changeFirst mine (Evidence.verifiedAt verified.copiedHead) journal.profiles
        pending := none
        phase := .locked }

def performPublish (journal : Journal) (locks : LockSet) : Executing (Outcome Unit) :=
  match journal.successorDirectory with
  | none => throws (.reset .corruptJournal) journal
  | some directory =>
    -- the lookup marker is durable before the publication
    let journal := { journal with pending := some .verifyHousehold, phase := .commitUnknown }
    ask (.persistJournal journal) journal fun _ =>
      ask (.publishSuccessorHousehold
          ⟨journal.attempt, journal.oldHouseholdKey, journal.newHouseholdKey, journal.fence, directory, locks⟩)
        journal fun _ => .done (.ok (), journal)

def performVerify (journal : Journal) (locks : LockSet) : Executing (Outcome Unit) :=
  match journal.successorDirectory with
  | none => throws (.reset .corruptJournal) journal
  | some expected =>
    ask (.observeSuccessorHousehold ⟨journal.attempt, journal.newHouseholdKey, expected, locks⟩) journal fun
      | .absent => persist { journal with pending := some .publishHousehold, phase := .publishingHousehold }
      | .unknown => persist { journal with phase := .commitUnknown }
      | .committed libraryId head directory =>
        if libraryId ≠ core.libraryId journal.newHouseholdKey ∨ ¬ validDigest head ∨
            ¬ sameDirectory core directory expected then
          throws (.reset .successorNotVerified) journal
        else persist { journal with
          successorHouseholdHead := some head
          householdCommitted := true
          pending := none
          phase := .retiringOld }

def performRetireProfile (profile : String) (journal : Journal) (locks : LockSet) :
    Executing (Outcome Unit) :=
  let mine := fun p : Evidence => p.profile = profile && !p.oldRetired
  match journal.profiles.find? mine with
  | none => throws (.reset .corruptJournal) journal
  | some evidence =>
    if ¬ journal.householdCommitted then throws (.reset .corruptJournal) journal
    else
      ask (.retireProfileLibrary
          ⟨journal.attempt, profile, evidence.oldKey, core.libraryId evidence.newKey, locks⟩) journal fun _ =>
        persist { journal with
          profiles := changeFirst mine Evidence.retired journal.profiles
          pending := none }

def performRetireHousehold (journal : Journal) (locks : LockSet) : Executing (Outcome Unit) :=
  if ¬ journal.householdCommitted ∨ journal.oldHouseholdRetired then throws (.reset .corruptJournal) journal
  else
    ask (.retireHouseholdLibrary
        ⟨journal.attempt, journal.oldHouseholdKey, core.libraryId journal.newHouseholdKey, locks⟩)
        journal fun _ =>
      persist { journal with oldHouseholdRetired := true, pending := none }

def performAdopt (journal : Journal) (locks : LockSet) : Executing (Outcome Unit) :=
  match adoptionRequest journal locks with
  | none => throws (.reset .corruptJournal) journal
  | some request =>
    let journal := { journal with pending := some .verifyAdoption }
    ask (.persistJournal journal) journal fun _ =>
      ask (.adoptSuccessor request) journal fun _ => .done (.ok (), journal)

def performVerifyAdoption (journal : Journal) (locks : LockSet) : Executing (Outcome Unit) :=
  match adoptionRequest journal locks with
  | none => throws (.reset .corruptJournal) journal
  | some request =>
    ask (.successorIsAdopted request) journal fun adopted =>
      if ¬ adopted then persist { journal with pending := some .adoptSuccessor }
      else
        -- the last copy of the old keys is erased only after exact adoption readback
        let journal := { journal with phase := .complete, pending := none }
        ask (.clearJournal journal.attempt) journal fun _ => .done (.ok (), journal)

def perform (journal : Journal) (locks : LockSet) : EffectIntent → Executing (Outcome Unit)
  | .moveProfile profile => performMove core profile journal locks
  | .publishHousehold => performPublish journal locks
  | .verifyHousehold => performVerify core journal locks
  | .retireProfile profile => performRetireProfile core profile journal locks
  | .retireHousehold => performRetireHousehold core journal locks
  | .adoptSuccessor => performAdopt journal locks
  | .verifyAdoption => performVerifyAdoption journal locks

/-! ## The next effect -/

/-- The directory to publish: the one that is recorded, or else the one the evidence gives. -/
def intendedDirectory (journal : Journal) : Except Failure Directory :=
  match journal.successorDirectory with
  | some directory => .ok directory
  | none => successorDirectory core journal

/-- The intent the planner's decision becomes. -/
def plan (journal : Journal) : ResetEffect → Except Failure Journal
  | .moveLiveProfiles profiles =>
    match profiles.head? with
    | none => .error (.reset .corruptJournal)
    | some profile =>
      if ¬ journal.profiles.any (fun p => p.profile = profile && !p.verified) then .error (.reset .corruptJournal)
      else .ok { journal with phase := .movingProfiles, pending := some (.moveProfile profile) }
  | .commitSuccessorHousehold =>
    if ¬ allVerified journal then .error (.reset .corruptJournal)
    else (intendedDirectory core journal).map fun directory => { journal with
      successorDirectory := some directory
      phase := .publishingHousehold
      pending := some .publishHousehold }
  | .retireOldLibraries profiles household =>
    if ¬ journal.householdCommitted ∨ journal.successorDirectory = none then .error (.reset .corruptJournal)
    else match profiles.head?, household with
      | some profile, _ => .ok { journal with phase := .retiringOld, pending := some (.retireProfile profile) }
      | none, true => .ok { journal with phase := .retiringOld, pending := some .retireHousehold }
      | none, false => .error (.reset .corruptJournal)
  | .complete =>
    if ¬ allRetired journal then .error (.reset .corruptJournal)
    else .ok { journal with phase := .adopting, pending := some .adoptSuccessor }

/-- Return the status of the journal in hand. -/
def reporting (work : Executing (Outcome Unit)) : Executing (Outcome Status) :=
  work.bind fun (result, journal) => .done (result.map fun _ => statusOf journal, journal)

/-- Acquire every lock for a journal in its first phase. -/
def acquire (journal : Journal) : Executing (Outcome Unit) :=
  ask (.persistJournal journal) journal fun _ =>
    ask (.acquireLocks (lockRequest core journal)) journal fun locks =>
      if ¬ validateLocks core locks journal then throws (.reset .invalidLocks) journal
      else persist { journal with locks := some locks, phase := .locked }

/-- One step of an attempt, from what is stored. -/
def drive (journal : Journal) : Executing (Outcome Status) :=
  if journal.phase = .complete then .done (.ok (statusOf journal), journal)
  else match journal.locks, journal.pending with
    | none, _ => reporting (acquire core { journal with phase := .prepared })
    | some locks, some effect => reporting (perform core journal locks effect)
    | some _, none =>
      match core.resetNext (plannerInput journal) with
      | none => throws (.reset .corruptJournal) journal
      | some decision =>
        match plan core journal decision with
        | .error failure => throws failure journal
        | .ok journal => reporting (persist journal)

/-! ## Start and resume -/

def discard (journal : Journal) : Executing (Except Failure (Option Status)) :=
  .call (.clearJournal journal.attempt) fun answer => .done <| answer.map fun _ =>
    some ⟨none, (journal.profiles.filter Evidence.verified).length, journal.profiles.length⟩

/-- Ends the attempt when den-edge says it is over. -/
def guarded (work : Executing (Outcome Status)) : Executing (Except Failure (Option Status)) :=
  work.bind fun
    | (.ok status, _) => .done (.ok (some status))
    | (.error .rolledBack, journal) =>
      if journal.phase ≠ .complete then discard journal else .done (.error .rolledBack)
    | (.error (.refused reason), journal) =>
      if journal.householdCommitted then .done (.error (.refused reason))
      else
        .call (.abortReset ⟨journal.attempt, ⟨core.libraryId journal.oldHouseholdKey, journal.oldHouseholdKey⟩⟩)
          fun
          | .ok .aborted => discard journal
          | .ok .committed => .done (.error (.refused reason))
          | .error failure => .done (.error failure)
    | (.error failure, _) => .done (.error failure)

def MAX_KEY_ATTEMPTS : ℕ := 32

/-- What `start` is called with, and what it draws: an attempt, keys (`none` where not of 32 bytes), the time. -/
structure StartInput where
  directory : Directory
  householdKey : String
  fence : Fence
  successorHouseholdKey : Option String
  attempt : String
  draws : ℕ → Option String
  now : ℕ

/-- A drawn key that is not in use, and the number of keys drawn so far. -/
def freshKey (draws : ℕ → Option String) (used : List String) : ℕ → ℕ → Except Failure (String × ℕ)
  | 0, _ => .error (.reset .randomKeyFailure)
  | fuel + 1, drawn =>
    match draws drawn with
    | none => .error (.reset .randomKeyFailure)
    | some candidate =>
      if used.contains candidate then freshKey draws used fuel (drawn + 1) else .ok (candidate, drawn + 1)

/-- One evidence per live profile, each with a fresh key. -/
def newEvidence (draws : ℕ → Option String) : List ProfileEntry → List String → ℕ → Except Failure (List Evidence)
  | [], _, _ => .ok []
  | entry :: rest, used, drawn =>
    if 0xffffffff ≤ entry.keyVersion then .error (.reset .invalidDirectory)
    else do
      let (key, drawn) ← freshKey draws used MAX_KEY_ATTEMPTS drawn
      let evidence ← newEvidence draws rest (key :: used) drawn
      .ok (⟨entry.id, entry.key, key, entry.keyVersion, entry.keyVersion + 1, none, false, false⟩ :: evidence)

/-- The successor household's key: the caller's, or a fresh one. -/
def newHouseholdKey (input : StartInput) (used : List String) : Except Failure (String × ℕ) :=
  match input.successorHouseholdKey with
  | none => freshKey input.draws used MAX_KEY_ATTEMPTS 0
  | some key =>
    if ¬ canonicalKey key ∨ used.contains key then .error (.reset .invalidHouseholdKey) else .ok (key, 0)

def newJournal (input : StartInput) : Except Failure Journal := do
  if ¬ canonicalKey input.householdKey then .error (.reset .invalidHouseholdKey)
  if ¬ checkedFence input.fence then .error (.reset .invalidFence)
  let document ← match core.validateStored input.directory with
    | none => .error (.reset .invalidDirectory)
    | some document => .ok document
  if ¬ validId32 input.attempt then .error (.reset .invalidAttempt)
  let latest ← match latestStamp document with
    | none => .error (.reset .invalidDirectory)
    | some latest => .ok latest
  let device := String.ofList ((core.libraryId input.householdKey).toList.take 16)
  let resetStamp ← match core.issue latest input.now device with
    | none => .error (.other "den-core")
    | some issued => .ok issued
  let live := liveEntries document
  let liveKeys := input.householdKey :: live.map ProfileEntry.key
  if ¬ liveKeys.Nodup then .error (.reset .invalidDirectory)
  -- a successor key also never equals a deleted profile's retired key
  let used := liveKeys ++ (document.profiles.map Prod.snd).map ProfileEntry.key
  let (newKey, drawn) ← newHouseholdKey input used
  let profiles ← newEvidence input.draws live (newKey :: used) drawn
  .ok {
    attempt := input.attempt
    directory := document
    fence := input.fence
    oldHouseholdKey := input.householdKey
    newHouseholdKey := newKey
    resetStamp := resetStamp
    profiles := profiles
    locks := none
    successorDirectory := none
    successorHouseholdHead := none
    householdCommitted := false
    oldHouseholdRetired := false
    phase := .prepared
    pending := none }

/-- Begin one reset: every key is drawn and persisted before the first effect. -/
def start (input : StartInput) : Executing (Except Failure (Option Status)) :=
  .call .loadJournal fun
    | .error failure => .done (.error failure)
    | .ok (some _) => .done (.error (.reset .resetAlreadyPending))
    | .ok none =>
      match newJournal core input with
      | .error failure => .done (.error failure)
      | .ok journal =>
        if ¬ validate core journal then .done (.error (.reset .corruptJournal))
        else .call (.persistJournal journal) fun
          | .error failure => .done (.error failure)
          | .ok _ => guarded core (drive core journal)

/-- A loaded journal that passes its check. -/
def loaded (next : Journal → Executing (Except Failure (Option Status))) :
    Executing (Except Failure (Option Status)) :=
  .call .loadJournal fun
    | .error failure => .done (.error failure)
    | .ok none => .done (.ok none)
    | .ok (some journal) =>
      if ¬ validate core journal then .done (.error (.reset .corruptJournal)) else next journal

def resume : Executing (Except Failure (Option Status)) :=
  loaded core fun journal => guarded core (drive core journal)

def status : Executing (Except Failure (Option Status)) :=
  loaded core fun journal => .done (.ok (some (statusOf journal)))

end DenEdge.Executor
