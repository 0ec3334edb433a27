import DenEdge.Base.Except
import DenEdge.Reset.Store

/-!
# The requests of a key reset

The handlers of `/lib/{id}/exclusive-operation` and of a locked library's retirement: each builds the world of its
request, asks the model what the request means, and performs exactly that effect, one commit on one library at a
time. A handler answers with the libraries as it leaves them and its reply.

* `post`: acquire, takeover and rollback.
* `successorCommit`, `abortRequest`: the household's decision for or against.
* `retireRequest`: the retirement door on the household, then the member's marker; a crash may fall between.
* `writeBlocked`: what an ordinary write finds.
-/

namespace DenEdge.Reset

variable (hex : Hash → String)

/-- The stored answer of an attempt, as a lookup renders it. -/
inductive Answer where
  | opened (attempt : String) (committed : Bool)
  | aborted (attempt : String)
  | recovered (attempt : String) (by' : Option String) (outcome : Option Outcome)
  | completed (attempt : String) (outcome : Option Outcome)
  deriving DecidableEq

inductive Reply where
  /-- The request's effect is committed. -/
  | granted (answer : Answer)
  /-- What was answered before, or has come of it since. -/
  | stored (answer : Answer)
  | deleted
  | done
  | refused (status : ℕ) (error : String)
  deriving DecidableEq

def conflict : Reply := .refused 409 "migration_in_progress"
def badRequest : Reply := .refused 400 "bad_request"
def notFound : Reply := .refused 404 "not_found"
def gone : Reply := .refused 410 "library_moved"

/-- What a commit that failed answers. -/
def storeFailure : StoreError → Reply
  | .locked => conflict
  | .invalid why =>
    if why = "migration_source_changed" then .refused 409 "migration_source_changed"
    else if why = "exclusive_precondition" then conflict
    else .refused 500 "internal_error"
  | _ => .refused 500 "internal_error"

def invalidReply : Invalid → Reply
  | .attemptMismatch => .refused 409 "migration_attempt_mismatch"
  | _ => badRequest

/-! ## Lookups -/

/-- Whether a member's lock has been voided by its household. A retired household retired every member first. -/
def householdVoids (household : Library) (member : Option Record) : Bool :=
  member.all fun member =>
    if member.phase = .aborted then true
    else match household.vault with
      | none => false
      | some house => house.reset.all fun record => record.attempt ≠ member.attempt || !record.phase.live

def terminalAnswer (attempt : String) (entry : Entry) : Answer :=
  match entry.state with
  | .recovered => .recovered attempt entry.by' entry.outcome
  | .completed => .completed attempt entry.outcome
  | .aborted | .active => .aborted attempt

def openAnswer (attempt : String) (entry : Entry) (phase : Phase) : Answer :=
  .opened attempt (entry.kind = .reset && entry.role = .household && phase ≠ .opened)

/-- The stored answer for an attempt on a library, or its terminal result. -/
def lookupBody (v : Vault) (household : Option Library) (attempt : String) : Option Answer :=
  (v.entries attempt).map fun entry =>
    if entry.state ≠ .active then terminalAnswer attempt entry
    else if entry.role = .profile ∧
        (household.any (householdVoids · v.reset) ∨ v.reset.all (fun record => record.attempt ≠ attempt)) then
      .aborted attempt
    else openAnswer attempt entry ((v.reset.map Record.phase).getD .opened)

def lookupReply (v : Vault) (household : Option Library) (attempt : String) : Reply :=
  match lookupBody v household attempt with
  | none => notFound
  | some answer => .stored answer

/-! ## The store of a request -/

/-- The wire an exclusive-operation route requires: 5 for a household, 4 for a profile library. -/
def requiredWire (wireMin : ℕ) : Option ℕ :=
  if wireMin ≤ 3 then none else if wireMin = 4 then some 4 else some 5

variable (libs : Libraries)

/-- The store a request works on, for a holder of its token who speaks its wire. -/
def targetStore (id : String) (token : Hash) (wire : Option ℕ) : Except Reply Vault :=
  match libs id with
  | .absent => .error notFound
  | .moved _ => .error gone
  | .stored v =>
    if 5 < v.wireMin then .error (.refused 426 "upgrade_required")
    else match requiredWire v.wireMin with
      | none => .error notFound
      | some required =>
        if wire ≠ some required then .error (.refused 426 "upgrade_required")
        else if v.token ≠ token then .error (.refused 403 "forbidden")
        else .ok v

/-- Replace one library's store by what a commit left of it. -/
def commitAt (id : String) (committed : Except StoreError Vault) (answer : Vault → Reply) :
    Libraries × Reply :=
  match committed with
  | .error e => (libs, storeFailure e)
  | .ok v => (Function.update libs id (.stored v), answer v)

/-! ## Acquire, takeover, rollback -/

structure AcquireBody where
  attempt : String
  purpose : String
  role : Role
  expectedSource : Source
  successor : Option String
  members : Option (List Member)
  household : Option String

structure Post where
  id : String
  token : Hash
  wire : Option ℕ
  /-- The successor token's header: absent, unusable, or the hash of its value. -/
  proof : Option (Option Hash)
  body : AcquireBody
  /-- The name drawn for a new lock. -/
  lockName : String

def newEntry (record : Record) (body : AcquireBody) : Entry where
  kind := .reset
  role := record.role
  state := .active
  by' := none
  outcome := none
  source := body.expectedSource
  fence := record.fence
  wireMin := record.wireMin
  lock := record.lock
  successor := body.successor
  members := body.members.getD []
  household := body.household
  recovers := none

/-- The record of a new lock. -/
def newRecord (v : Vault) (p : Post) (members : List Member) (household : Option String)
    (preexisting : List String) : Record where
  attempt := p.body.attempt
  owner := p.body.attempt
  role := p.body.role
  phase := .opened
  lock := p.lockName
  wireMin := v.wireMin
  fence := v.fence
  successor := p.body.successor.getD ""
  members := members
  household := household
  proven := true
  chain := []
  preexisting := preexisting

/-- The commit of a new lock, over whatever record was read. -/
def openEdit (expectLock : LockExpect) (v : Vault) (record : Record) (body : AcquireBody) : Edit :=
  { Edit.new expectLock (.set record.attempt) with
    expectSource := some (record.fence.generation, record.fence.base)
    expectReset := some v.reset
    putReset := some record
    putEntries := [(record.attempt, newEntry record body)] }

/-- The declared successors that are there when a household acquires. -/
def declaredThere (body : AcquireBody) : List String :=
  (body.successor.getD "" :: (body.members.getD []).map Member.successor).filter fun id =>
    match libs id with
    | .absent => false
    | _ => true

def openHousehold (v : Vault) (p : Post) : Except StoreError Vault :=
  let record := newRecord v p (p.body.members.getD []) none (declaredThere libs p.body)
  v.commit (openEdit .absent v record p.body)

/-- A voided lock of a finished reset may still hold the key, so the commit expects nothing of it. -/
def openMember (v : Vault) (p : Post) : Except StoreError Vault :=
  let record := newRecord v p [] p.body.household []
  v.commit (openEdit .any v record p.body)

/-- Replace the household's owner with a recovery attempt. -/
def takeover (v : Vault) (p : Post) (proven : Bool) : Except StoreError Vault :=
  match v.reset with
  | none => .error (.invalid "exclusive_precondition")
  | some record =>
    let recovery := p.body.attempt
    let entry : Entry := {
      kind := .recovery, role := .household, state := .active, by' := none, outcome := none
      source := p.body.expectedSource, fence := record.fence, wireMin := record.wireMin, lock := record.lock
      successor := none, members := [], household := none
      recovers := some ⟨record.owner, record.phase, record.successor, record.members⟩ }
    let previous := (v.entries record.owner).map fun old =>
      (record.owner, { old with state := .recovered, by' := some recovery })
    v.commit { Edit.new (.held record.owner) (.set recovery) with
      expectReset := some (some record)
      putReset := some { record with
        owner := recovery, proven := proven, chain := record.chain ++ [⟨record.owner, recovery⟩] }
      putEntries := previous.toList ++ [(recovery, entry)] }

/-- What becomes of the owner's entry when a reset ends without retiring. -/
def endedOwner (by' : Option (String × Source)) (entry : Entry) : Entry :=
  match by' with
  | some (recovery, _) =>
    { entry with state := .recovered, by' := some recovery, outcome := some .aborted }
  | none =>
    match entry.kind with
    | .reset => { entry with state := .aborted }
    | .recovery => { entry with state := .completed, outcome := some .aborted }

/-- The entry of a recovery that ended the reset it recovered. -/
def finishedEntry (record : Record) (source : Source) : Entry where
  kind := .recovery
  role := .household
  state := .completed
  by' := none
  outcome := some .aborted
  source := source
  fence := record.fence
  wireMin := record.wireMin
  lock := record.lock
  successor := none
  members := []
  household := none
  recovers := none

/-- Everything that ends a reset without retiring it, as one commit on the household. `by'` is a recovery that
never became owner. -/
def endEdit (v : Vault) (record : Record) (by' : Option (String × Source)) : Edit :=
  let owner := (v.entries record.owner).map fun entry => (record.owner, endedOwner by' entry)
  let recovery := by'.map fun (recovery, source) => (recovery, finishedEntry record source)
  let chain := record.chain.filterMap fun link => (v.entries link.attempt).map fun entry =>
    (link.attempt, { entry with state := .recovered, by' := some link.by', outcome := some .aborted })
  { Edit.new (.held record.owner) .clear with
    expectReset := some (some record)
    putReset := some { record with
      phase := .aborted
      chain := record.chain ++ (by'.map fun (recovery, _) => ⟨record.owner, recovery⟩).toList }
    putSweep := some (some record.owed)
    putEntries := owner.toList ++ recovery.toList ++ chain }

/-- End the reset a household's record is of. -/
def endReset (v : Vault) (by' : Option (String × Source)) : Except StoreError Vault :=
  match v.reset with
  | none => .error (.invalid "exclusive_precondition")
  | some record => v.commit (endEdit v record by')

/-- Whether an acquire repeats the request its attempt's entry records. -/
def sameRequest (entry : Entry) (acquire : Bool) (body : AcquireBody) : Bool :=
  match entry.kind with
  | .reset => acquire && entry.role = body.role && entry.source = body.expectedSource &&
      entry.successor = body.successor && entry.members = body.members.getD [] && entry.household = body.household
  | .recovery => !acquire && body.role = .household && entry.source = body.expectedSource

/-- The model's request of a body. -/
def postReq (p : Post) (acquire : Bool) : Req where
  kind := if acquire then .acquire else .takeover
  library := p.id
  attempt := some p.body.attempt
  purpose := some p.body.purpose
  role := some p.body.role
  expectedSource := some p.body.expectedSource
  successor := p.body.successor
  members := p.body.members
  household := p.body.household
  successorCredential := p.proof.join.map hex

/-- The household an acquire of a profile library names. -/
def postHousehold (p : Post) : Option String :=
  if p.body.purpose = PURPOSE ∧ p.body.role = .profile then p.body.household.filter validHexId else none

/-- The libraries a post is decided over: its own, the household it names, and the successor it proves. -/
def postPeers (p : Post) (v : Vault) : List (String × Option LibRole) :=
  (p.id, none) :: (postHousehold p).toList.map (fun id => (id, some .household)) ++
    (if p.proof.isSome then v.reset.toList.map (fun record => (record.successor, some .successor)) else [])

/-- Perform what the model decided of a post. -/
def performPost (p : Post) (v : Vault) : Decision → Libraries × Reply
  | .refused status error => (libs, .refused status error)
  | .lookup => (libs, lookupReply v none p.body.attempt)
  | .opens _ =>
    let opened := match p.body.role with
      | .household => openHousehold libs v p
      | .profile => openMember v p
    commitAt libs p.id opened fun _ => .granted (.opened p.body.attempt false)
  | .takeover _ =>
    commitAt libs p.id (takeover v p p.proof.isSome) fun _ => .granted (.opened p.body.attempt false)
  | .rollback =>
    commitAt libs p.id (endReset v (some (p.body.attempt, p.body.expectedSource))) fun _ =>
      .granted (.completed p.body.attempt (some .aborted))
  | _ => (libs, conflict)

def post (p : Post) : Libraries × Reply :=
  if p.proof = some none then (libs, conflict)
  else if p.body.purpose ≠ PURPOSE ∧ p.body.purpose ≠ RECOVERY_PURPOSE then (libs, badRequest)
  else if ¬ validId32 p.body.attempt then (libs, badRequest)
  else
    let acquire := p.body.purpose = PURPOSE
    if acquire ∧ p.body.role = .profile ∧ postHousehold p = none then (libs, badRequest)
    else match targetStore libs p.id p.token p.wire with
      | .error reply => (libs, reply)
      | .ok v =>
        match v.entries p.body.attempt with
        | some entry =>
          -- lookup first: the same attempt is a replay of its stored answer, any other value under it a mismatch
          if sameRequest entry acquire p.body then
            (libs, lookupReply v ((postHousehold p).map libs) p.body.attempt)
          else (libs, .refused 409 "migration_attempt_mismatch")
        | none =>
          if p.proof.isSome ∧ v.reset.isNone then (libs, conflict)
          else
            let world := buildWorld hex libs p.id true (postPeers p v) noWorld
            match step world (postReq hex p acquire) with
            | .error invalid => (libs, invalidReply invalid)
            | .ok decision => performPost libs p v decision

/-! ## Successor commit and abort -/

/-- A request on a household that names an attempt. -/
structure HouseholdRequest where
  id : String
  token : Hash
  wire : Option ℕ
  attempt : String
  successor : String

def attemptReq (kind : Kind) (id attempt : String) (successor : Option String) : Req where
  kind := kind
  library := id
  attempt := some attempt
  purpose := none
  role := none
  expectedSource := none
  successor := successor
  members := none
  household := none
  successorCredential := none

def commitPeers (id : String) (v : Vault) : List (String × Option LibRole) :=
  (id, none) :: match v.reset with
    | none => []
    | some record =>
      record.members.map (fun member => (member.libraryId, some .profile)) ++
        [(record.successor, some .successor)]

/-- The household's record goes from open to committed. -/
def commitSuccessor (v : Vault) : Except StoreError Vault :=
  match v.reset with
  | none => .error (.invalid "exclusive_precondition")
  | some record => v.commit { Edit.new (.held record.owner) .keep with
      expectReset := some (some record)
      putReset := some { record with phase := .committed } }

def successorCommit (r : HouseholdRequest) : Libraries × Reply :=
  if ¬ validId32 r.attempt then (libs, badRequest)
  else match targetStore libs r.id r.token r.wire with
    | .error reply => (libs, reply)
    | .ok v =>
      let world := buildWorld hex libs r.id false (commitPeers r.id v) noWorld
      match step world (attemptReq .commit r.id r.attempt (some r.successor)) with
      | .error invalid => (libs, invalidReply invalid)
      | .ok (.refused status error) => (libs, .refused status error)
      | .ok .lookup => (libs, lookupReply v none r.attempt)
      | .ok .committed => commitAt libs r.id (commitSuccessor v) fun v => lookupReply v none r.attempt
      | .ok _ => (libs, conflict)

def abortRequest (r : HouseholdRequest) : Libraries × Reply :=
  if ¬ validId32 r.attempt then (libs, badRequest)
  else match targetStore libs r.id r.token r.wire with
    | .error reply => (libs, reply)
    | .ok v =>
      let world := buildWorld hex libs r.id false [(r.id, none)] noWorld
      match step world (attemptReq .abort r.id r.attempt none) with
      | .error invalid => (libs, invalidReply invalid)
      | .ok (.refused status error) => (libs, .refused status error)
      | .ok .lookup => (libs, lookupReply v none r.attempt)
      | .ok .aborted => commitAt libs r.id (endReset v none) fun v => lookupReply v none r.attempt
      | .ok _ => (libs, conflict)

/-! ## Retirement -/

structure RetireRequest where
  id : String
  token : Hash
  wire : Option ℕ
  attempt : String
  successor : String
  /-- The library generation the request was sent under. -/
  generation : String
  /-- The server stops once the household's retirement door is committed. -/
  crash : Bool

/-- Whether an attempt owns the household a retired member's marker names. -/
def followsHousehold (tombstone : Tombstone) (attempt : String) : Bool :=
  tombstone.role = .profile && tombstone.household.any fun household =>
    ((libs household).vault.bind Vault.reset).any fun record =>
      record.attempt = tombstone.acquired && record.owner = attempt

/-- A retirement of a library that is retired. -/
def retireMoved (r : RetireRequest) : Marker → Reply
  | .bare _ => gone
  | .exclusive successor tombstone =>
    if successor = r.successor ∧ (tombstone.owner = r.attempt ∨ tombstone.acquired = r.attempt ∨
        followsHousehold libs tombstone r.attempt) then .deleted
    else gone

def retirePeers (id : String) (record : Record) : List (String × Option LibRole) :=
  (id, none) :: match record.role with
    | .profile => record.household.toList.map fun household => (household, some .household)
    | .household => record.members.map fun member => (member.libraryId, some .profile)

/-- A library without the lock of a retirement by another attempt. -/
def Lib.withoutOther (lib : Lib) (attempt : String) : Lib :=
  if lib.lock.any (fun lock => lock.phase = .retired && lock.attempt ≠ attempt) then { lib with lock := none }
  else lib

/-- A member retired by another reset's lock is not retired by this one. -/
def forgetOthers (record : Record) (world : World) : World :=
  if record.role = .household then
    record.members.foldl (fun world member =>
      Function.update world member.libraryId ((world member.libraryId).map (·.withoutOther record.attempt))) world
  else world

/-- The retirement door: the household's record goes from committed to retiring. -/
def openDoor (v : Vault) : Except StoreError Vault :=
  match v.reset with
  | none => .error (.invalid "exclusive_precondition")
  | some record =>
    if record.phase ≠ .committed then .error (.invalid "exclusive_precondition")
    else v.commit { Edit.new (.held record.owner) .keep with
      expectReset := some (some record)
      putReset := some { record with phase := .retiring } }

/-- What the retired library keeps. -/
def retiredMarker (r : RetireRequest) (record : Record) : Marker :=
  .exclusive r.successor {
    lock := record.lock
    acquired := record.attempt
    owner := if record.role = .household then record.owner else r.attempt
    role := record.role
    household := record.household
    chain := record.chain
    members := record.members }

/-- The effect of a retirement the model allows: the door on the household, then the library's marker. -/
def performRetire (r : RetireRequest) (v : Vault) (record : Record) (door : Bool) :
    Libraries × Reply :=
  if r.generation ≠ v.generation then (libs, .refused 409 "generation_changed")
  else if door then
    match record.household.bind fun household => (libs household).vault.map fun house => (household, house) with
    | none => (libs, notFound)
    | some (household, house) =>
      match openDoor house with
      | .error e => (libs, storeFailure e)
      | .ok house =>
        let libs := Function.update libs household (.stored house)
        if r.crash then (libs, .done)
        else (Function.update libs r.id (.moved (retiredMarker r record)), .deleted)
  else (Function.update libs r.id (.moved (retiredMarker r record)), .deleted)

def retireRequest (r : RetireRequest) : Libraries × Reply :=
  if ¬ validId32 r.attempt then (libs, badRequest)
  else match libs r.id with
    | .absent => (libs, notFound)
    | .moved marker => (libs, retireMoved libs r marker)
    | .stored v =>
      if 3 ≤ v.wireMin ∧ r.wire.getD 0 < v.wireMin then (libs, .refused 426 "upgrade_required")
      else if v.token ≠ r.token then (libs, .refused 403 "forbidden")
      else match v.reset with
        | none => (libs, if v.key.isSome then conflict else .refused 409 "lock_not_held")
        | some record =>
          let world := forgetOthers record (buildWorld hex libs r.id false (retirePeers r.id record) noWorld)
          match step world (attemptReq .retire r.id r.attempt (some r.successor)) with
          | .error invalid => (libs, invalidReply invalid)
          | .ok (.refused status error) => (libs, .refused status error)
          | .ok (.retired door) => performRetire libs r v record door
          | .ok .lookup => (libs, .deleted)
          | .ok _ => (libs, conflict)

/-! ## Ordinary writes and sweeps -/

/-- Clear a member lock its household voided: the key is released and the record keeps only the tombstone. -/
def clearVoid (v : Vault) (record : Record) : Except StoreError Vault :=
  let entry := (v.entries record.attempt).map fun entry => (record.attempt, { entry with state := .aborted })
  v.commit { Edit.new (.held record.attempt) .clear with
    expectReset := some (some record)
    putReset := some { record with phase := .aborted }
    putEntries := entry.toList }

/-- What an ordinary write finds: the lock in force, or a store it may write, a voided member lock cleared first.
-/
def writeBlocked (v : Vault) : Option Vault :=
  match v.key, v.reset with
  | none, _ => some v
  | some _, none => none
  | some key, some record =>
    if record.role ≠ .profile ∨ record.phase ≠ .opened ∨ key ≠ record.attempt then none
    else match record.household with
      | none => none
      | some household =>
        if householdVoids (libs household) (some record) then (clearVoid v record).toOption else none

/-- Clear a member's lock if it is still the one of the reset its household decided against. -/
def clearVoidMember (v : Vault) (attempt : String) : Vault :=
  match v.reset with
  | none => v
  | some record =>
    if v.key = some record.attempt ∧ record.role = .profile ∧ record.phase = .opened ∧
      record.attempt = attempt then
      (clearVoid v record).toOption.getD v
    else v

end DenEdge.Reset
