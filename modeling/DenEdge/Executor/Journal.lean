import DenEdge.Base.Assoc
import DenEdge.Client.Rows
import DenEdge.Reset.Model

/-!
# The journal of a compound key reset

The durable record of one attempt to rotate a household and every live profile of it: the keys it was started
with, what has come of each profile, and the effect that is about to be made. `validate` is the check a journal
has to pass whenever it is loaded.

What den-core computes (the checks and the canonical form of a directory, one stamped rotation, the planner) and
the id of a library's key are a parameter, `Core`; `Planner` is what is assumed of them. JavaScript's checks of a
value's type have no counterpart here.
-/

namespace DenEdge.Executor

open DenEdge.Client (Stamp ZERO_STAMP)
open DenEdge.Reset (lowerHexdigit validId32 validDigest)

inductive ErrorCode where
  | resetAlreadyPending
  | invalidAttempt
  | invalidHouseholdKey
  | invalidFence
  | invalidDirectory
  | randomKeyFailure
  | corruptJournal
  | invalidLocks
  | invalidProfileVerification
  | successorNotVerified

/-- What a step of a reset may throw. -/
inductive Failure where
  | reset (code : ErrorCode)
  /-- A refusal den-edge will repeat. -/
  | refused (reason : String)
  /-- den-edge ended the attempt. -/
  | rolledBack
  /-- Anything else: den-edge could not be reached, storage failed. -/
  | other (what : String)

inductive Phase where
  | prepared
  | locked
  | movingProfiles
  | publishingHousehold
  | commitUnknown
  | retiringOld
  | adopting
  | complete
  deriving DecidableEq

inductive EffectIntent where
  | moveProfile (profile : String)
  | publishHousehold
  | verifyHousehold
  | retireProfile (profile : String)
  | retireHousehold
  | adoptSuccessor
  | verifyAdoption

structure Fence where
  generation : ℕ
  head : String

/-! ## Directories -/

/-- One profile of a directory: the fields a reset reads, and the rest of it. -/
structure ProfileEntry where
  id : String
  display : Stamp
  key : String
  keyVersion : ℕ
  library : Stamp
  policy : Stamp
  deleted : Bool
  deletedAt : Stamp
  rest : String

structure Directory where
  profiles : List (String × ProfileEntry)
  rest : String

def compareStamps (a b : Stamp) : Ordering :=
  (compare a.1 b.1).then ((compare a.2.1 b.2.1).then (compare a.2.2 b.2.2))

/-- A well-formed stamp. -/
def stamp (s : Stamp) : Bool :=
  s.1 ≤ MAX_SAFE_INTEGER && s.2.1 ≤ MAX_SAFE_INTEGER && bytes s.2.2 = 16 && s.2.2.toList.all lowerHexdigit

/-- The live profiles, by id. -/
def liveEntries (directory : Directory) : List ProfileEntry :=
  ((directory.profiles.map Prod.snd).filter fun entry => ¬ entry.deleted).insertionSort fun a b => a.id ≤ b.id

def stampsOf (entry : ProfileEntry) : List Stamp := [entry.display, entry.library, entry.policy, entry.deletedAt]

/-- The latest stamp of a directory; `none` where a stamp is malformed. -/
def latestStamp (directory : Directory) : Option Stamp :=
  ((directory.profiles.map Prod.snd).flatMap stampsOf).foldlM (fun latest at' =>
    if stamp at' then some (if compareStamps at' latest = .gt then at' else latest) else none) ZERO_STAMP

/-! ## Keys -/

def base64Char (c : Char) : Bool :=
  ('A' ≤ c && c ≤ 'Z') || ('a' ≤ c && c ≤ 'z') || ('0' ≤ c && c ≤ '9') || c = '+' || c = '/'

/-- Canonical padded base64 of 32 bytes: the last digit before the padding has no bits to spare. -/
def canonicalKey (key : String) : Bool :=
  key.length = 44 && (key.toList.take 43).all base64Char && key.toList.getLast? = some '=' &&
    (key.toList[42]?).any fun c => "AEIMQUYcgkosw048".toList.contains c

/-! ## Journals -/

/-- How far one profile has come. -/
structure Evidence where
  profile : String
  oldKey : String
  newKey : String
  oldVersion : ℕ
  newVersion : ℕ
  copiedHead : Option String
  verified : Bool
  oldRetired : Bool

structure LockHandle where
  libraryId : String
  value : String

structure LockSet where
  attempt : String
  household : LockHandle
  profiles : List (String × LockHandle)

/-- What is stored of an attempt. -/
structure Journal where
  attempt : String
  /-- The committed directory the attempt was authorized against. -/
  directory : Directory
  fence : Fence
  oldHouseholdKey : String
  newHouseholdKey : String
  resetStamp : Stamp
  profiles : List Evidence
  locks : Option LockSet
  successorDirectory : Option Directory
  successorHouseholdHead : Option String
  householdCommitted : Bool
  oldHouseholdRetired : Bool
  phase : Phase
  pending : Option EffectIntent

/-- The evidence the planner is given. -/
structure PlannerInput where
  directory : Directory
  fence : Fence
  profiles : List Evidence
  householdCommitted : Bool
  oldHouseholdRetired : Bool

inductive ResetEffect where
  | moveLiveProfiles (profiles : List String)
  | commitSuccessorHousehold
  | retireOldLibraries (profiles : List String) (household : Bool)
  | complete

/-- What is computed outside the executor; `none` is thrown. -/
structure Core where
  /-- A stored directory in canonical form. -/
  validateStored : Directory → Option Directory
  /-- The canonical bytes of a directory. -/
  jcs : Directory → Option String
  /-- One profile's library key, rotated at a stamp. -/
  rotateLibrary : Directory → String → ℕ → String → Stamp → Option Directory
  resetNext : PlannerInput → Option ResetEffect
  /-- The next stamp of a device that has seen the latest one. -/
  issue : Stamp → ℕ → String → Option Stamp
  libraryId : String → String

def plannerInput (journal : Journal) : PlannerInput where
  directory := journal.directory
  fence := journal.fence
  profiles := journal.profiles
  householdCommitted := journal.householdCommitted
  oldHouseholdRetired := journal.oldHouseholdRetired

variable (core : Core)

def sameDirectory (left right : Directory) : Bool :=
  match (core.validateStored left).bind core.jcs, (core.validateStored right).bind core.jcs with
  | some a, some b => a = b
  | _, _ => false

/-- One verified candidate's key in place. -/
def rotateVerified (resetStamp : Stamp) (candidate : Directory) (evidence : Evidence) :
    Except Failure Directory :=
  if ¬ evidence.verified ∨ evidence.copiedHead = none then .error (.reset .corruptJournal)
  else match core.rotateLibrary candidate evidence.profile evidence.newVersion evidence.newKey resetStamp with
    | none => .error (.other "den-core")
    | some rotated => .ok rotated

/-- The old directory with each verified candidate's key in place, at the one stamp of the attempt. -/
def successorDirectory (journal : Journal) : Except Failure Directory := do
  let candidate ← journal.profiles.foldlM (rotateVerified core journal.resetStamp) journal.directory
  match core.validateStored candidate with
  | none => .error (.reset .invalidDirectory)
  | some canonical =>
    if (liveEntries canonical).length ≠ journal.profiles.length ∨ ¬ journal.profiles.all (fun evidence =>
        (Assoc.get canonical.profiles evidence.profile).any fun entry =>
          entry.key = evidence.newKey && entry.keyVersion = evidence.newVersion &&
            entry.library = journal.resetStamp) then
      .error (.reset .invalidDirectory)
    else .ok canonical

structure LibraryRef where
  libraryId : String
  key : String

structure LockRequest where
  attempt : String
  fence : Fence
  household : LibraryRef
  profiles : List (String × LibraryRef)
  successorHousehold : String
  successorProfiles : List (String × String)

def lockRequest (journal : Journal) : LockRequest where
  attempt := journal.attempt
  fence := journal.fence
  household := ⟨core.libraryId journal.oldHouseholdKey, journal.oldHouseholdKey⟩
  profiles := journal.profiles.map fun evidence =>
    (evidence.profile, ⟨core.libraryId evidence.oldKey, evidence.oldKey⟩)
  successorHousehold := core.libraryId journal.newHouseholdKey
  successorProfiles := journal.profiles.map fun evidence => (evidence.profile, core.libraryId evidence.newKey)

/-- Exactly one distinct, non-empty handle per library of the attempt. -/
def validateLocks (locks : LockSet) (journal : Journal) : Bool :=
  let expected := lockRequest core journal
  let ids := expected.profiles.map Prod.fst
  let handles := some locks.household :: ids.map (Assoc.get locks.profiles)
  locks.attempt = journal.attempt &&
    locks.household.libraryId = expected.household.libraryId &&
    handles.all (fun handle => handle.any fun handle => handle.value ≠ "") &&
    locks.profiles.length = ids.length &&
    decide (handles.map (Option.map LockHandle.value)).Nodup &&
    expected.profiles.all fun (id, library) =>
      (Assoc.get locks.profiles id).any fun handle => handle.libraryId = library.libraryId

def checkedFence (fence : Fence) : Bool := fence.generation ≤ MAX_SAFE_INTEGER && validDigest fence.head

def allVerified (journal : Journal) : Bool := journal.profiles.all Evidence.verified

/-- Everything old is recorded retired. -/
def allRetired (journal : Journal) : Bool :=
  journal.householdCommitted && journal.oldHouseholdRetired && journal.profiles.all Evidence.oldRetired

def validPhase (journal : Journal) : Bool :=
  match journal.phase, journal.pending with
  | .prepared, none => journal.locks.isNone
  | .locked, none => journal.locks.isSome && !journal.householdCommitted
  | .movingProfiles, some (.moveProfile _) => journal.locks.isSome && !journal.householdCommitted
  | .publishingHousehold, some .publishHousehold =>
    journal.successorDirectory.isSome && !journal.householdCommitted
  | .commitUnknown, some .verifyHousehold => journal.successorDirectory.isSome && !journal.householdCommitted
  | .retiringOld, none => journal.householdCommitted
  | .retiringOld, some (.retireProfile _) => journal.householdCommitted
  | .retiringOld, some .retireHousehold => journal.householdCommitted
  | .adopting, some .adoptSuccessor => allRetired journal
  | .adopting, some .verifyAdoption => allRetired journal
  | .complete, none => allRetired journal
  | _, _ => false

/-- What one profile's evidence has to agree with. -/
def validEvidence (directory : Directory) (evidence : Evidence) : Bool :=
  canonicalKey evidence.oldKey && canonicalKey evidence.newKey &&
    ((Assoc.get directory.profiles evidence.profile).any fun entry =>
      entry.key = evidence.oldKey && entry.keyVersion = evidence.oldVersion) &&
    evidence.newVersion = evidence.oldVersion + 1

/-- What has been recorded of one profile. -/
def validProgress (evidence : Evidence) : Bool :=
  evidence.verified = evidence.copiedHead.isSome && evidence.copiedHead.all validDigest

/-- The part of the check that is about what never changes. -/
def validAttempt (journal : Journal) : Bool :=
  validId32 journal.attempt && canonicalKey journal.oldHouseholdKey && canonicalKey journal.newHouseholdKey &&
    journal.oldHouseholdKey ≠ journal.newHouseholdKey && checkedFence journal.fence &&
    match core.validateStored journal.directory with
    | none => false
    | some directory =>
      match latestStamp directory with
      | none => false
      | some previous =>
        let ids := journal.profiles.map Evidence.profile
        let oldKeys := journal.profiles.map Evidence.oldKey ++ [journal.oldHouseholdKey]
        let newKeys := journal.profiles.map Evidence.newKey ++ [journal.newHouseholdKey]
        stamp journal.resetStamp && compareStamps journal.resetStamp previous = .gt &&
          journal.resetStamp.2.2 = String.ofList ((core.libraryId journal.oldHouseholdKey).toList.take 16) &&
          decide (ids.Pairwise (· ≤ ·)) && decide ids.Nodup &&
            ids = (liveEntries directory).map ProfileEntry.id &&
          journal.profiles.all (validEvidence directory) &&
          decide oldKeys.Nodup && decide newKeys.Nodup && !oldKeys.any newKeys.contains

/-- Whether a directory is the one the evidence gives. -/
def recomputes (journal : Journal) (directory : Directory) : Bool :=
  match successorDirectory core journal with
  | .error _ => false
  | .ok recomputed => sameDirectory core directory recomputed

/-- The part of the check that is about what has been done. -/
def validRecord (journal : Journal) : Bool :=
  journal.profiles.all validProgress &&
    (!journal.oldHouseholdRetired || journal.householdCommitted) &&
    (!journal.profiles.any Evidence.oldRetired || journal.householdCommitted) &&
    (!journal.householdCommitted || allVerified journal) &&
    (journal.successorDirectory.isNone || allVerified journal) &&
    (!journal.householdCommitted || journal.successorDirectory.isSome) &&
    journal.successorHouseholdHead.isSome = journal.householdCommitted &&
    journal.successorHouseholdHead.all validDigest &&
    journal.locks.all (validateLocks core · journal) &&
    journal.successorDirectory.all (recomputes core journal) &&
    validPhase journal

/-- The check of a journal that is loaded. -/
def validate (journal : Journal) : Bool :=
  validAttempt core journal && validRecord core journal && (core.resetNext (plannerInput journal)).isSome

/-- What the evidence of an attempt allows next. -/
def Allows (journal : Journal) : ResetEffect → Prop
  | .moveLiveProfiles profiles => ∃ profile ∈ profiles.head?, ∃ evidence ∈ journal.profiles,
      evidence.profile = profile ∧ evidence.verified = false
  | .commitSuccessorHousehold => allVerified journal = true ∧ journal.householdCommitted = false
  | .retireOldLibraries profiles household => journal.householdCommitted = true ∧
      (∀ profile ∈ profiles, ∃ evidence ∈ journal.profiles, evidence.profile = profile ∧
        evidence.oldRetired = false) ∧
      (household = true → journal.oldHouseholdRetired = false) ∧ (profiles = [] → household = true)
  | .complete => allRetired journal = true

/-- What is assumed of den-core: a checked directory is in canonical form and has canonical bytes, and the planner
names a step that the evidence allows. -/
structure Planner extends Core where
  canonical : ∀ directory checked, validateStored directory = some checked → validateStored checked = some checked
  materializes : ∀ directory checked, validateStored directory = some checked → (jcs checked).isSome
  names : ∀ journal, validAttempt toCore journal = true → validRecord toCore journal = true →
    ∃ effect, resetNext (plannerInput journal) = some effect ∧ Allows journal effect

end DenEdge.Executor
