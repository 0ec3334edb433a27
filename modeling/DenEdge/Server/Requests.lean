import DenEdge.Server.Files

/-!
# Requests that write a library

The handlers of one library's writes: `batch`, the staged rewrite (`rewriteOpen`, `rewriteRows`, `rewriteCommit`,
`rewriteAbort`) and `registerMember`, each behind the checks `handle` makes before it. A handler is a function
from the files it finds to the files it leaves and its reply; a check that refuses carries both, since a refusal
may come after an effect.

What a request meets but does not decide is part of it: the time, the generation drawn if one is needed, the
answer of the rate limits, and the failure of the disk, if one happens (`Fault`).
-/

namespace DenEdge

inductive Reply where
  | applied (result : BatchResult)
  | opened (rewrite : String) (base : ℕ)
  | staged (rows : ℕ)
  | rewritten (head : ℕ)
  | aborted
  | registered
  | upgradeRequired (min : ℕ)
  | headMoved (head : ℕ)
  | refused (status : ℕ) (error : String)

/-- Where a request's storage fails: in a read, once a database has been made for it, or after its commit. -/
inductive Fault where
  | none
  | reading
  | created
  | committed
  deriving DecidableEq

/-- What every library request carries and meets. -/
structure Call where
  id : String
  token : Option String
  wire : Option ℕ
  generation : Option String
  member : Option Proof
  now : ℕ
  /-- The generation drawn for a new or rewritten library. -/
  fresh : String
  /-- Whether the lock found, if there is one, is a member lock its household has voided. -/
  lockVoid : Bool
  fault : Fault

/-- A check that may refuse, leaving these files and giving this reply. -/
abbrev Handling (α : Type) := Except (LibFiles × Reply) α

def refuse {α : Type} (f : LibFiles) (status : ℕ) (error : String) : Handling α :=
  .error (f, .refused status error)

/-- What a read that failed answers. -/
def readError : StoreError → Reply
  | .full => .refused 413 "library_full"
  | _ => .refused 500 "internal_error"

def reading {α : Type} (f : LibFiles) : Except StoreError α → Handling α
  | .ok a => .ok a
  | .error e => .error (f, readError e)

def REWRITE_IDLE_MS : ℕ := 5 * 60 * 1000

/-- The staged rewrite, unless it has been left idle: that one is deleted when it is looked for. -/
def loadRewrite (f : LibFiles) (now : ℕ) : LibFiles × Option RewriteStage :=
  match f.stage with
  | none => (f, none)
  | some stage =>
    if REWRITE_IDLE_MS ≤ now - stage.touched then ({ f with stage := none }, none) else (f, some stage)

/-- The exclusive-operation lock lets nothing through but is cleared where its household has voided it. -/
def unlocked (f : LibFiles) (lockVoid : Bool) : Handling LibFiles :=
  match f.db with
  | none => .ok f
  | some db =>
    if db.lock.isNone || f.moved.isSome then .ok f
    else if lockVoid then .ok { f with db := some { db with lock := none } }
    else refuse f 409 "migration_in_progress"

variable (cfg : Config)

/-- The wire and generation of a request against those of the library. -/
def requestAuthority (f : LibFiles) (c : Call) (protocol : Option Protocol) : Handling Unit :=
  let minimum := (protocol.map Protocol.wireMin).getD 2
  if 3 ≤ minimum ∧ c.wire.getD 0 < minimum then .error (f, .upgradeRequired minimum)
  else if c.wire.isSome ∧ c.generation ≠
    some ((protocol.map fun p => fullGeneration cfg p.generation).getD "0") then
    refuse f 409 "generation_changed"
  else .ok ()

/-! ## The checks before every handler -/

/-- What `handle` checks of a write before its handler runs: the files as the checks leave them, and the hash of
the request's token. -/
def admission (f : LibFiles) (c : Call) (rewriting : Bool) : Handling (LibFiles × Hash) := do
  if ¬ validHexId c.id then refuse f 400 "invalid_library_id"
  else if c.fault = .reading then refuse f 500 "internal_error"
  else
    let protocol ← reading f (protocolFor f)
    let minimum := (protocol.map Protocol.wireMin).getD 2
    if 3 ≤ minimum ∧ c.wire.getD 0 < minimum then .error (f, .upgradeRequired minimum)
    else
      match c.token.filter tokenShape with
      | none => refuse f 401 "missing_token"
      | some token =>
        let hash := cfg.sha256 token
        if (f.db.bind Db.token).any (· ≠ hash) then refuse f 403 "forbidden"
        else
          let f ← unlocked f c.lockVoid
          requestAuthority cfg f c protocol
          if rewriting then .ok (f, hash)
          else
            let (f, stage) := loadRewrite f c.now
            if stage.isSome then refuse f 409 "rewrite_in_progress" else .ok (f, hash)

/-- The one authority of a library, for a holder of its token: a v2 log is imported, and a library that is not
there is made if it may be. -/
def v3Store (f : LibFiles) (token : Hash) (fresh : String) (create : Bool) :
    Except StoreError (Option (LibFiles × Db)) :=
  match authority f with
  | .moved => .ok none
  | .v3 => do
    let db ← existingLibrary f token
    .ok (some (published f, db))
  | .v2 =>
    match f.log with
    | none =>
      if create then
        let db := freshDb token none fresh
        .ok (some ({ f with formatV3 := true, db := some db }, db))
      else .ok none
    | some log =>
      if log.tokenHash ≠ token then .error .forbidden
      else do
        let db ← importDb log fresh
        .ok (some ({ f with formatV3 := true, db := some db }, db))

/-- What a store that could not be opened answers. -/
def storeError : StoreError → Reply
  | .forbidden => .refused 403 "forbidden"
  | e => readError e

/-- The store of a library that must be there. -/
def libraryStore (f : LibFiles) (token : Hash) (fresh : String) : Handling (LibFiles × Db) :=
  match v3Store f token fresh false with
  | .error e => .error (f, storeError e)
  | .ok none => refuse f 404 "not_found"
  | .ok (some store) => .ok store

/-! ## Batches -/

structure BatchRequest extends Call where
  requestedMin : Option ℕ
  writes : List Write
  /-- Whether the proven household's live lock declares this library as a successor. -/
  declared : Bool
  /-- What the limits on starting a library answer, if they refuse. -/
  limited : Option Reply

/-- What a batch may hold, before any library is looked at. -/
def parseWrites (writes : List Write) : Bool :=
  writes ≠ [] && writes.length ≤ MAX_WRITES && validKeys (writes.map Cas.Write.key) &&
    writes.all fun write => valueFits write.value 4

/-- The tier a proof starts a library in: a visitor's, unless it is of a library that is not one. -/
def proofTier (files : Files) (id : String) (member : Option Proof) : Except StoreError Bool := do
  let held ← holdsAnother cfg files id member
  match held, member with
  | true, some (other, _) => libraryIsVisitor (files other)
  | _, _ => .ok true

/-- Whether a library being started under `visitors` is a visitor's, or the limit that refuses it. -/
def startUnderVisitors (files : Files) (f : LibFiles) (r : BatchRequest) (token : Hash)
    (partOfAReset : Bool) : Handling Bool := do
  let visitor ← reading f (proofTier cfg files r.id r.member)
  match partOfAReset, r.limited with
  | false, some reply => .error (f, reply)
  | _, _ => .ok (visitor && !cfg.reservedFor r.id token)

/-- The minimum a new library inherits from the library its starter proves, up to library-v4. -/
def memberWireMinimum (files : Files) (id : String) (member : Option Proof) :
    Except StoreError (Option ℕ) := do
  let held ← holdsAnother cfg files id member
  match held, member with
  | true, some (other, _) =>
    let protocol ← protocolFor (files other)
    .ok (some ((protocol.map fun p => min p.wireMin 4).getD 2))
  | _, _ => .ok none

/-- The minimum a first batch sets, and its refusals, checked before the store exists. -/
def newLibraryChecks (files : Files) (f : LibFiles) (r : BatchRequest) : Handling ℕ := do
  let inherited ← reading f (memberWireMinimum cfg files r.id r.member)
  let firstMin := max (r.requestedMin.getD 2) (inherited.getD 0)
  if 3 ≤ firstMin ∧ r.wire.getD 0 < firstMin then .error (f, .upgradeRequired firstMin)
  else if r.writes.any (fun write => !valueFits write.value firstMin) then refuse f 400 "invalid_batch"
  else .ok firstMin

/-- Who may start a library outside `visitors`, and at which rate. -/
def newLibraryGate (files : Files) (f : LibFiles) (r : BatchRequest) (token : Hash)
    (partOfAReset : Bool) : Handling Unit := do
  let held ← reading f (holdsAnother cfg files r.id r.member)
  if cfg.newLibraries = .members ∧ ¬ held ∧ ¬ cfg.reservedFor r.id token then
    refuse f 403 "new_libraries_closed"
  else
    match partOfAReset, cfg.newLibraries, r.limited with
    | true, _, _ | _, .visitors, _ | _, _, none => .ok ()
    | false, _, some reply => .error (f, reply)

/-- What a batch goes to its store with. -/
structure BatchPlan where
  selectedV3 : Bool
  firstMin : ℕ
  mark : Bool

/-- Whether a library has no files yet. -/
def newLibrary (f : LibFiles) : Bool := authority f ≠ .v3 && f.log.isNone

/-- Whether a batch starts its library: there is none, or under `visitors` one whose first commit never landed,
which has no tier yet. -/
def starting (f : LibFiles) (protocol : Option Protocol) : Bool :=
  newLibrary f || (cfg.newLibraries = .visitors && authority f = .v3 && protocol.any (·.head = 0))

/-- Whether a batch starts a successor that the proven household's live lock declares. -/
def isPartOfAReset (files : Files) (f : LibFiles) (r : BatchRequest) (isStart : Bool) :
    Handling Bool :=
  if isStart then do
    let held ← reading f (holdsAnother cfg files r.id r.member)
    .ok (held && r.declared)
  else .ok false

/-- The minimum asked of a library, and for a new one the checks that come with it. -/
def firstMinimum (files : Files) (f : LibFiles) (r : BatchRequest) (token : Hash)
    (partOfAReset : Bool) : Handling ℕ :=
  if newLibrary f then do
    let firstMin ← newLibraryChecks cfg files f r
    newLibraryGate cfg files f r token partOfAReset
    .ok firstMin
  else .ok (r.requestedMin.getD 2)

/-- Whether the batch marks its library as a visitor's. -/
def startMark (files : Files) (f : LibFiles) (r : BatchRequest) (token : Hash)
    (isStart partOfAReset : Bool) : Handling Bool :=
  if isStart ∧ cfg.newLibraries = .visitors then startUnderVisitors cfg files f r token partOfAReset
  else .ok false

/-- Everything a batch decides before it has a store. -/
def batchPlan (files : Files) (f : LibFiles) (r : BatchRequest) (token : Hash) :
    Handling BatchPlan := do
  let protocol ← reading f (protocolFor f)
  let isStart := starting cfg f protocol
  let partOfAReset ← isPartOfAReset cfg files f r isStart
  let firstMin ← firstMinimum cfg files f r token partOfAReset
  let mark ← startMark cfg files f r token isStart partOfAReset
  .ok ⟨authority f = .v3, firstMin, mark⟩

/-- What a refused transaction answers. -/
def batchError : StoreError → Reply
  | .full => .refused 413 "library_full"
  | .forbidden => .refused 403 "forbidden"
  | .tooLarge => .refused 400 "invalid_batch"
  | .locked => .refused 409 "migration_in_progress"
  | .generationChanged => .refused 409 "generation_changed"
  | .upgradeRequired minimum => .upgradeRequired minimum
  | .invalid _ | .failed _ => .refused 500 "internal_error"

def visitorTier (mark : Bool) : VisitorTier :=
  ⟨mark, cfg.visitorLibraryMaxBytes, cfg.visitorLibraryMaxRows⟩

/-- The transaction of a batch, on the store it opened or made. -/
def batchApply (f : LibFiles) (db : Db) (r : BatchRequest) (plan : BatchPlan) :
    Handling (LibFiles × Reply) := do
  if r.fault = .created then refuse f 500 "internal_error"
  else
    let protocol ← reading f (readProtocol db)
    requestAuthority cfg f r.toCall (if plan.selectedV3 then some protocol else none)
    let fence : WriteAuthority := ⟨r.wire, r.wire.map fun _ => protocol.generation⟩
    let appliedMin := if protocol.head = 0 then plan.firstMin else 2
    match applyTiered db r.writes cfg.storedBytes appliedMin (visitorTier cfg plan.mark) fence with
    | .error e => .error (f, batchError e)
    | .ok (db, result) =>
      let f := { f with db := some db }
      if r.fault = .committed then refuse f 500 "internal_error" else .ok (f, .applied result)

/-- A batch up to its store, once `handle` has let it through: the files with the database, which it may have
made, and what its transaction goes by. -/
def batchStore (files : Files) (f : LibFiles) (r : BatchRequest) (token : Hash) :
    Handling (LibFiles × Db × BatchPlan) :=
  if r.wire.isSome ∧ r.wire.getD 0 < r.requestedMin.getD 0 then refuse f 400 "bad_request"
  else if ¬ parseWrites r.writes then refuse f 400 "invalid_batch"
  else if authority f = .moved then refuse f 410 "library_moved"
  else do
    let plan ← batchPlan cfg files (published f) r token
    match v3Store (published f) token r.fresh true with
    | .error e => .error (published f, storeError e)
    | .ok none => refuse (published f) 410 "library_moved"
    | .ok (some (f, db)) => .ok (f, db, plan)

/-- A batch whose transaction follows its store at once. -/
def batch (files : Files) (f : LibFiles) (r : BatchRequest) (token : Hash) :
    Handling (LibFiles × Reply) := do
  let (f, db, plan) ← batchStore cfg files f r token
  batchApply cfg f db r plan

/-! ## The staged rewrite -/

/-- A rewrite's request: the rewrite it names, and the generation check made for a log just converted. -/
structure RewriteRequest extends Call where
  rewrite : String
  rows : List RewriteRow
  base : ℕ
  wireMin : ℕ

/-- The store of a rewrite or a member request, with its lock and the request's authority checked. A v2 log that
the request found had generation `0`. -/
def writerStore (f : LibFiles) (c : Call) (token : Hash) : Handling (LibFiles × Db) := do
  let convertedLegacy := c.wire.isSome && c.generation = some "0" && authority f = .v2
  let (f, _) ← libraryStore f token c.fresh
  let f ← unlocked f c.lockVoid
  match f.db with
  | none => refuse f 404 "not_found"
  | some db =>
    let protocol ← reading f (readProtocol db)
    requestAuthority cfg f c (if convertedLegacy then none else some protocol)
    .ok (f, db)

/-- Stage a rewrite of the library, under the id drawn for it. -/
def rewriteOpen (f : LibFiles) (r : RewriteRequest) (token : Hash) : Handling (LibFiles × Reply) := do
  let (f, db) ← writerStore cfg f r.toCall token
  let (f, stage) := loadRewrite f r.now
  if stage.isSome then refuse f 409 "rewrite_in_progress"
  else
    let base := db.head.getD 0
    .ok ({ f with stage := some ⟨r.rewrite, base, r.now, []⟩ }, .opened r.rewrite base)

/-- The stage a request names. -/
def namedStage (f : LibFiles) (r : RewriteRequest) : Handling (LibFiles × RewriteStage) :=
  let (f, stage) := loadRewrite f r.now
  match stage with
  | none => refuse f 404 "not_found"
  | some stage => if stage.id = r.rewrite then .ok (f, stage) else refuse f 404 "not_found"

/-- One staged row, over the row its key had. -/
def stageRow (rows : List RewriteRow) (row : RewriteRow) : List RewriteRow :=
  rows.filter (·.key ≠ row.key) ++ [row]

/-- What a library of this tier may hold: rows and bytes. -/
def tierCaps (visitor : Bool) : ℕ × ℕ :=
  if visitor then (min MAX_ROWS cfg.visitorLibraryMaxRows, min cfg.storedBytes cfg.visitorLibraryMaxBytes)
  else (MAX_ROWS, cfg.storedBytes)

def stagedBytes (rows : List RewriteRow) : ℕ := (rows.map fun row => storedCharge row.key row.value).sum

def rewriteRows (f : LibFiles) (r : RewriteRequest) (token : Hash) : Handling (LibFiles × Reply) := do
  let (f, _) ← writerStore cfg f r.toCall token
  if r.rows = [] ∨ MAX_WRITES < r.rows.length ∨
    ¬ r.rows.all fun row => validHexId row.key && valueFits row.value 4
  then refuse f 400 "invalid_batch"
  else
    let (f, stage) ← namedStage f r
    let rows := r.rows.foldl stageRow stage.rows
    let visitor ← reading f (libraryIsVisitor f)
    let (maxRows, maxBytes) := tierCaps cfg visitor
    if maxRows < rows.length ∨ maxBytes < stagedBytes rows then refuse f 413 "library_full"
    else .ok ({ f with stage := some { stage with rows := rows, touched := r.now } }, .staged rows.length)

/-- What a refused rewrite answers. -/
def rewriteError (db : Db) (base : ℕ) : StoreError → Reply
  | .invalid why =>
    if db.head ≠ some base ∧ "head_moved:".toList.isPrefixOf why.toList then .headMoved (db.head.getD base)
    else .refused 500 "internal_error"
  | .full => .refused 413 "library_full"
  | .tooLarge => .refused 400 "value_too_large"
  | .locked => .refused 409 "migration_in_progress"
  | _ => .refused 500 "internal_error"

def rewriteCommit (f : LibFiles) (r : RewriteRequest) (token : Hash) :
    Handling (LibFiles × Reply) := do
  if r.wire.getD 0 < r.wireMin then refuse f 400 "bad_request"
  else
    let (f, db) ← writerStore cfg f r.toCall token
    let (f, stage) ← namedStage f r
    if r.base ≠ stage.base then .error (f, .headMoved stage.base)
    else
      let liveCap := (tierCaps cfg db.visitor.isSome).2
      match DenEdge.rewrite db r.base stage.rows r.wireMin liveCap r.fresh with
      | .error e => .error (f, rewriteError db r.base e)
      | .ok (db, protocol) =>
        let f := { f with db := some db }
        if r.fault = .committed then refuse f 500 "internal_error"
        else .ok ({ f with stage := none }, .rewritten protocol.head)

def rewriteAbort (f : LibFiles) (r : RewriteRequest) (token : Hash) : Handling (LibFiles × Reply) := do
  let (f, _) ← writerStore cfg f r.toCall token
  let (f, _) ← namedStage f r
  .ok ({ f with stage := none }, .aborted)

/-! ## Members -/

/-- Register the member hash of the proof the request carries. -/
def registerMemberRequest (f : LibFiles) (c : Call) (token : Hash) : Handling (LibFiles × Reply) := do
  match c.member with
  | none => refuse f 400 "invalid_member"
  | some (claimed, member) =>
    if claimed ≠ c.id ∨ ¬ tokenShape member then refuse f 400 "invalid_member"
    else
      let (f, db) ← writerStore cfg f c token
      match registerMember db db.member (cfg.sha256 member) with
      | .error .locked => refuse f 409 "migration_in_progress"
      | .error (.invalid "member_already_registered") => refuse f 409 "member_already_registered"
      | .error _ => refuse f 500 "internal_error"
      | .ok (db, _) => .ok ({ f with db := some db }, .registered)

/-! ## The server, request by request -/

inductive Request where
  | batch (r : BatchRequest)
  | rewriteOpen (r : RewriteRequest)
  | rewriteRows (r : RewriteRequest)
  | rewriteCommit (r : RewriteRequest)
  | rewriteAbort (r : RewriteRequest)
  | registerMember (c : Call)
  /-- The library is retired, by its owner or by a sweep of declared successors. -/
  | retire (id : String) (marker : String)

def Request.id : Request → String
  | .batch r => r.id
  | .rewriteOpen r | .rewriteRows r | .rewriteCommit r | .rewriteAbort r => r.id
  | .registerMember c => c.id
  | .retire id _ => id

/-- What a handler leaves and answers, refused or not. -/
def finished : Handling (LibFiles × Reply) → LibFiles × Reply
  | .ok done => done
  | .error refused => refused

/-- A handler behind its admission. -/
def admitted (f : LibFiles) (c : Call) (rewriting : Bool)
    (handler : LibFiles → Hash → Handling (LibFiles × Reply)) : LibFiles × Reply :=
  finished (admission cfg f c rewriting >>= fun (f, token) => handler f token)

/-- What one request leaves of the library it names, and its reply. -/
def handle (files : Files) (f : LibFiles) : Request → LibFiles × Reply
  | .batch r => admitted cfg f r.toCall false fun f token => batch cfg files f r token
  | .rewriteOpen r => admitted cfg f r.toCall true fun f token => rewriteOpen cfg f r token
  | .rewriteRows r => admitted cfg f r.toCall true fun f token => rewriteRows cfg f r token
  | .rewriteCommit r => admitted cfg f r.toCall true fun f token => rewriteCommit cfg f r token
  | .rewriteAbort r => admitted cfg f r.toCall true fun f token => rewriteAbort cfg f r token
  | .registerMember c => admitted cfg f c false fun f token => registerMemberRequest cfg f c token
  | .retire _ marker => (⟨some (f.moved.getD marker), false, none, none, f.stage⟩, .aborted)

/-- One request with nothing in between: no library but the one it names changes. -/
def serve (files : Files) (r : Request) : Files :=
  Function.update files r.id (handle cfg files (files r.id) r).1

/-! ## The server, step by step

A batch makes its library's database, waits, and only then runs its transaction. It holds the library's lock
meanwhile: whatever takes that lock waits, other writes and `isHouseholdMember` too. A batch that starts another
library reads the tier of the library it proves without the lock. -/

/-- A batch that has its store and not yet its transaction. -/
structure Pending where
  request : BatchRequest
  plan : BatchPlan

/-- Whether the batch found no database, so that its store was made for it. -/
def Pending.starts (p : Pending) : Bool := !p.plan.selectedV3

/-- The libraries' files, and the batch that has a library's lock between its store and its transaction. -/
structure Host where
  files : Files
  pending : String → Option Pending

def Host.idle (files : Files) : Host := ⟨files, fun _ => none⟩

inductive HostEvent where
  /-- A request, a batch only up to its store. -/
  | request (r : Request)
  /-- The transaction of the batch that has the library's lock. -/
  | commit (id : String)
  /-- That batch is dropped before its transaction. -/
  | drop (id : String)

def Host.step (s : Host) : HostEvent → Host
  | .request r =>
    -- a request waits where a batch has the lock
    if (s.pending r.id).isSome then s
    else
      match r with
      | .batch b =>
        match admission cfg (s.files b.id) b.toCall false >>= fun x => batchStore cfg s.files x.1 b x.2 with
        | .error (f, _) => { s with files := Function.update s.files b.id f }
        | .ok (f, _, plan) => ⟨Function.update s.files b.id f, Function.update s.pending b.id (some ⟨b, plan⟩)⟩
      | r => { s with files := serve cfg s.files r }
  | .commit id =>
    match s.pending id, (s.files id).db with
    | some p, some db =>
      let (f, _) := finished (batchApply cfg (s.files id) db p.request p.plan)
      ⟨Function.update s.files id f, Function.update s.pending id none⟩
    | _, _ => s
  | .drop id => { s with pending := Function.update s.pending id none }

end DenEdge
