import DenEdge.Store.Row

/-!
# The decisions of a key reset's lock

The pure half of the exclusive locks of a compound key reset: what a request means, over a small world of
libraries. The handlers build the world from what is stored, ask `step`, and perform the effect it decides.

* `held`: whether a lock is in force; a member's lock only while its household's record is live and of one
  attempt.
* `acquireOrTakeover`, `commit`, `abort`, `retire`: the decisions; `step` is the whole function.
-/

namespace DenEdge.Reset

/-! ## The world a decision is made over -/

/-- What a library was when it was locked: its migration generation, and a digest of its rows. -/
structure Source where
  generation : ℕ
  head : String
  deriving DecidableEq

inductive Phase where
  | opened
  | committed
  | retiring
  | retired
  | aborted
  deriving DecidableEq

/-- A household in one of these phases holds its set; everything else has ended. -/
def Phase.live : Phase → Bool
  | .opened | .committed | .retiring => true
  | .retired | .aborted => false

inductive Role where
  | household
  | profile
  deriving DecidableEq

inductive LibRole where
  | household
  | profile
  | successor

def LibRole.is : LibRole → Role → Bool
  | .household, .household | .profile, .profile => true
  | _, _ => false

/-- A profile library a household declares, and the library it moves to. -/
structure Member where
  libraryId : String
  successor : String
  deriving DecidableEq

def PURPOSE : String := "key-reset"
def RECOVERY_PURPOSE : String := "key-reset-recovery"

/-- The lock of a reset on one library. -/
structure Lock where
  attempt : String
  owner : String
  purpose : String
  role : Role
  phase : Phase
  source : Source
  successor : String
  members : List Member
  household : Option String
  swept : Bool
  proven : Bool
  /-- Declared successors that already existed when the household acquired: never swept. -/
  preexisting : List String

/-- A library as the decisions see it. -/
structure Lib where
  role : LibRole
  wireMin : ℕ
  source : Source
  rows : ℕ
  retired : Bool
  lock : Option Lock
  credential : Option String
  exist : Bool

abbrev World := String → Option Lib

inductive Kind where
  | acquire
  | takeover
  | commit
  | abort
  | write
  | sweep
  | retire
  | lookup
  deriving DecidableEq

structure Req where
  kind : Kind
  library : String
  attempt : Option String
  purpose : Option String
  role : Option Role
  expectedSource : Option Source
  successor : Option String
  members : Option (List Member)
  household : Option String
  successorCredential : Option String

/-- What is decided on a request. -/
inductive Decision where
  | lookup
  /-- A lookup, as the state a client sees. -/
  | rendered (state : String)
  | refused (status : ℕ) (error : String)
  /-- A new lock; for a household, the declared successors that already existed. -/
  | opens (preexisting : Option (List String))
  | takeover (phase : Phase)
  | rollback
  | committed
  | aborted
  | allowed
  | sweep (delete : List String)
  | nothing
  | ordinaryDelete
  | retired (door : Bool)
  deriving DecidableEq

/-- A request the model refuses to interpret. -/
inductive Invalid where
  | badRequest
  | malformed
  | attemptMismatch
  | roleMismatch
  | unknownLibrary
  deriving DecidableEq

def CONFLICT : Decision := .refused 409 "migration_in_progress"
def GONE : Decision := .refused 410 "library_moved"

/-! ## Shapes -/

def lowerHexdigit (c : Char) : Bool := ('0' ≤ c && c ≤ '9') || ('a' ≤ c && c ≤ 'f')

def validId32 (value : String) : Bool := bytes value = 32 && value.toList.all lowerHexdigit

def validDigest (value : String) : Bool := bytes value = 64 && value.toList.all lowerHexdigit

def validSource (source : Source) : Bool := source.generation ≤ MAX_SAFE_INTEGER && validDigest source.head

/-- Any library id the routes accept, in lower case. -/
def validId32OrLibrary (value : String) : Bool :=
  16 ≤ bytes value && bytes value ≤ 128 && value.toList.all lowerHexdigit

/-! ## Whether a lock is in force -/

variable (world : World)

def householdLock (lock : Lock) : Option Lock :=
  lock.household.bind fun id => (world id).bind Lib.lock

def heldLock (lock : Lock) : Bool :=
  match lock.role with
  | .household => lock.phase.live
  | .profile =>
    (householdLock world lock).any fun house =>
      lock.phase = .opened && house.attempt = lock.attempt && house.phase.live

def held (lock : Option Lock) : Bool := lock.any (heldLock world)

def mayAct (lock : Lock) (presenter : Option String) : Bool :=
  presenter.any fun presenter =>
    match lock.role with
    | .household => lock.owner = presenter
    | .profile => (householdLock world lock).any fun house =>
      house.attempt = lock.attempt && house.owner = presenter

/-! ## Acquire and takeover -/

/-- What a household declares: its members' ids sorted, and every id named once. -/
def declarationOK (library : String) (successor : String) (members : List Member) : Bool :=
  let ids := members.map Member.libraryId
  let everything := library :: ids ++ successor :: members.map Member.successor
  ids ≠ [] && decide (ids.Pairwise (· ≤ ·)) && everything.all validId32OrLibrary && decide everything.Nodup

/-- The declaration an acquire brings; a recovery brings none. -/
def checkDeclaration (request : Req) (role : Role) : Except Invalid Unit :=
  if request.kind ≠ .acquire then .ok ()
  else if ¬ request.successor.any validId32OrLibrary then .error .malformed
  else match role with
    | .household =>
      if declarationOK request.library (request.successor.getD "") (request.members.getD []) then .ok ()
      else .error .badRequest
    | .profile => if request.household.any validId32OrLibrary then .ok () else .error .malformed

/-- A request that repeats what the lock already records, or contradicts it. -/
def repeated (request : Req) (presenter : String) (role : Role) (expected : Source) (lock : Lock) :
    Option (Except Invalid Decision) :=
  if request.kind = .acquire then
    if lock.attempt ≠ presenter then none
    else some (if lock.role = role ∧ lock.source = expected ∧ lock.purpose = PURPOSE ∧
        some lock.successor = request.successor ∧ lock.members = request.members.getD [] ∧
        lock.household = request.household then .ok .lookup
      else .error .attemptMismatch)
  else if lock.attempt = presenter then some (.error .attemptMismatch)
  else if lock.owner = presenter then
    some (if lock.source = expected then .ok .lookup else .error .attemptMismatch)
  else none

/-- Whether the household an acquire names has declared this library to this very attempt. -/
def declaredBy (request : Req) (presenter : String) : Bool :=
  let house := request.household.bind fun id => (world id).bind Lib.lock
  house.any fun house =>
    house.purpose = PURPOSE && house.phase = .opened && house.attempt = presenter && house.owner = presenter &&
      house.members.contains ⟨request.library, request.successor.getD ""⟩

/-- The successor credential a recovery presents, if it presents one, is the successor's. -/
def provenBy (lock : Lock) (proof : Option String) : Bool :=
  proof.all fun proof =>
    (world lock.successor).any fun successor => !successor.retired && successor.credential = some proof

/-- A recovery of a household's lock that is in force. -/
def takeoverDecision (request : Req) (library : Lib) (lock : Lock) (expected : Source) : Decision :=
  if ¬ (expected = lock.source ∧ lock.source = library.source) then CONFLICT
  else if ¬ provenBy world lock request.successorCredential then CONFLICT
  else if request.successorCredential.isNone ∧ lock.phase = .retiring then CONFLICT
  else if request.successorCredential.isNone ∧ lock.phase = .committed then .rollback
  else .takeover lock.phase

/-- A household's declared successors that are there already. -/
def preexisting (request : Req) (role : Role) : Option (List String) :=
  if role = .household then
    some ((request.successor.getD "" :: (request.members.getD []).map Member.successor).filter
      fun id => (world id).any (·.exist))
  else none

/-- An acquire of a library whose lock is not of the same attempt. -/
def acquireDecision (request : Req) (library : Lib) (presenter : String) (role : Role)
    (expected : Source) : Except Invalid Decision :=
  if library.retired then .ok GONE
  else if held world library.lock then .ok CONFLICT
  else if ¬ library.role.is role then .error .roleMismatch
  else if role = .profile ∧ ¬ declaredBy world request presenter then .ok CONFLICT
  else if library.source ≠ expected then .ok (.refused 409 "migration_source_changed")
  else .ok (.opens (preexisting world request role))

/-- A recovery of a library whose lock is neither of the same attempt nor owned by it. -/
def recoverDecision (request : Req) (library : Lib) (role : Role) (expected : Source) :
    Except Invalid Decision :=
  if library.retired then .ok GONE
  else match library.lock.filter (heldLock world) with
    | none => .ok CONFLICT
    | some lock =>
      if lock.purpose ≠ PURPOSE ∨ lock.role ≠ .household then .ok CONFLICT
      else if ¬ library.role.is role then .error .roleMismatch
      else .ok (takeoverDecision world request library lock expected)

def wantPurpose (kind : Kind) : String := if kind = .acquire then PURPOSE else RECOVERY_PURPOSE

def acquireOrTakeover (request : Req) (library : Lib) : Except Invalid Decision :=
  match request.attempt.filter validId32, request.role, request.expectedSource.filter validSource with
  | some presenter, some role, some expected =>
    if request.purpose ≠ some (wantPurpose request.kind) then .error .malformed
    else if request.kind ≠ .acquire ∧ role ≠ .household then .ok CONFLICT
    else do
      checkDeclaration request role
      match library.lock.bind (repeated request presenter role expected) with
      | some answer => answer
      | none =>
        if request.kind = .acquire then acquireDecision world request library presenter role expected
        else recoverDecision world request library role expected
  | _, _, _ => .error .malformed

/-! ## Commit, abort, retire -/

/-- Whether the attempt that acquired a household's lock still owns it. -/
def ownedBy (lock : Lock) (presenter : Option String) : Bool :=
  lock.role = .household && some lock.attempt = presenter && some lock.owner = presenter

def commit (request : Req) (lock : Option Lock) : Except Invalid Decision :=
  match lock.filter (ownedBy · request.attempt) with
  | none => .ok CONFLICT
  | some lock =>
    if lock.phase = .committed then
      if request.successor = some lock.successor then .ok .lookup else .error .attemptMismatch
    else if lock.phase ≠ .opened then .ok CONFLICT
    else if request.successor ≠ some lock.successor then .error .attemptMismatch
    else if ¬ lock.members.all fun member =>
        ((world member.libraryId).bind Lib.lock).any fun l => l.attempt = lock.attempt && l.phase = .opened then
      .ok (.refused 409 "locks_incomplete")
    else if ¬ (world lock.successor).any fun s => s.exist && !s.retired && 5 ≤ s.wireMin && 1 ≤ s.rows then
      .ok (.refused 409 "successor_not_ready")
    else .ok .committed

def abort (library : Lib) (presenter : Option String) : Decision :=
  if library.retired then GONE
  else match library.lock.filter (·.role = .household) with
    | none => .refused 404 "not_found"
    | some lock =>
      if lock.phase = .aborted ∧ presenter.any (fun p => p = lock.attempt || p = lock.owner) then .lookup
      else if ¬ heldLock world lock ∨ some lock.owner ≠ presenter ∨ lock.phase ≠ .opened then CONFLICT
      else .aborted

/-- A retirement repeated on a library that is retired: the retiring attempt, or its household's owner now. -/
def retireAgain (request : Req) (library : Lib) : Decision :=
  match library.lock, request.attempt with
  | some lock, some presenter =>
    let owner := match lock.role with
      | .household => some lock.owner
      | .profile => ((householdLock world lock).filter (·.attempt = lock.attempt)).map Lock.owner
    if lock.phase = .retired ∧ (presenter = lock.attempt ∨ some presenter = owner) ∧
        request.successor = some lock.successor then .lookup
    else GONE
  | _, _ => GONE

/-- A retirement of a library whose lock is in force, for who may act on it. -/
def retireHeld (request : Req) (lock house : Lock) : Decision :=
  if request.successor ≠ some lock.successor then .refused 409 "successor_mismatch"
  else if ¬ house.proven then CONFLICT
  else if house.phase ≠ .committed ∧ house.phase ≠ .retiring then .refused 409 "successor_not_committed"
  else match lock.role with
    | .household =>
      if house.phase ≠ .retiring ∨ ¬ lock.members.all fun member =>
          ((world member.libraryId).bind Lib.lock).any fun l => l.phase = .retired then
        .refused 409 "locks_held"
      else .retired false
    | .profile => .retired (house.phase = .committed)

def retire (request : Req) (library : Lib) : Decision :=
  if library.retired then retireAgain world request library
  else match library.lock.filter (heldLock world) with
    | none => if request.attempt.isNone then .ordinaryDelete else .refused 409 "lock_not_held"
    | some lock =>
      if lock.purpose ≠ PURPOSE then CONFLICT
      else if ¬ mayAct world lock request.attempt then CONFLICT
      else
        match lock.role with
        | .household => retireHeld world request lock lock
        | .profile =>
          match householdLock world lock with
          | none => CONFLICT
          | some house => retireHeld world request lock house

def lookup (lock : Option Lock) (presenter : Option String) : Decision :=
  match lock with
  | none => .refused 404 "unknown_attempt"
  | some lock =>
    let house := match lock.role with
      | .household => some lock
      | .profile => householdLock world lock
    if house.isNone ∨ ¬ presenter.any (fun p => p = lock.attempt || p = lock.owner) then
      .refused 404 "unknown_attempt"
    else
      let phase := if lock.role = .profile ∧ house.any (·.phase = .aborted) then .aborted else lock.phase
      .rendered (match phase with
        | .opened => "open"
        | .committed | .retiring => "committed"
        | .retired => "retired"
        | .aborted => "aborted")

def sweepDecision (lock : Option Lock) : Decision :=
  match lock with
  | none => .nothing
  | some lock =>
    if lock.role = .household ∧ lock.phase = .aborted ∧ ¬ lock.swept then
      .sweep ((lock.successor :: lock.members.map Member.successor).filter fun id =>
        ¬ lock.preexisting.contains id)
    else .nothing

def step (request : Req) : Except Invalid Decision :=
  match world request.library with
  | none => .error .unknownLibrary
  | some library =>
    if (request.kind = .retire ∨ request.kind = .abort ∨ request.kind = .commit ∨ request.kind = .lookup) ∧
        ¬ request.attempt.all validId32 then .error .badRequest
    else match request.kind with
      | .lookup => .ok (lookup world library.lock request.attempt)
      | .acquire | .takeover => acquireOrTakeover world request library
      | .commit => commit world request library.lock
      | .abort => .ok (abort world library request.attempt)
      | .write =>
        .ok (if library.retired then GONE else if held world library.lock then CONFLICT else .allowed)
      | .sweep => .ok (sweepDecision library.lock)
      | .retire => .ok (retire world request library)

end DenEdge.Reset
