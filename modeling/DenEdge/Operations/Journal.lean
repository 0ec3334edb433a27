import DenEdge.Base.Digest
import DenEdge.Base.Run

/-!
# The journal of operations

A command or a task of a library carries an operation id. Before it is run its intent is kept in a journal, and
its result once it has run: a repeat of the operation, after the Worker was restarted, is answered from the
journal. The journal is one value that is written whole. It is cut to its newest entries, and to a number of
bytes.

Operations of a library are serialised by a lock, so that each is one step; what becomes of its writes, of its
work and of the Worker that runs it is its script.
-/

namespace DenEdge.Operations

def ENTRY_LIMIT : ℕ := 64

def BYTE_LIMIT : ℕ := 256 * 1024

def RESULT_BYTE_LIMIT : ℕ := 32 * 1024

inductive OperationKind where
  | command
  | task
  deriving DecidableEq

structure OperationResult where
  /-- As JSON. -/
  text : String
  /-- A history import that is to be continued. -/
  unfinished : Bool
  deriving DecidableEq

inductive EntryState where
  | intent
  | complete (result : OperationResult)
  deriving DecidableEq

structure Entry where
  kind : OperationKind
  operationId : String
  requestDigest : String
  state : EntryState
  deriving DecidableEq

/-- A receipt of the older journal, as far as it can be read. -/
structure LegacyEntry where
  kind : Option OperationKind
  operationId : Option String
  request : Option String
  result : Option OperationResult

/-- What the browser gives: SHA-256, the bytes of a journal as JSON, and a text parsed as JSON and written again.
-/
structure Codec where
  sha : Digest
  bytes : List Entry → ℕ
  reparse : String → Option String

/-- The two values that are kept. -/
structure Store where
  current : Option (List Entry)
  legacy : List LegacyEntry

variable (codec : Codec)

def LegacyEntry.migrated (entry : LegacyEntry) : Option Entry := do
  let kind ← entry.kind
  let operationId ← entry.operationId
  let request ← entry.request
  let result ← entry.result
  let request ← codec.reparse request
  return ⟨kind, operationId, codec.sha.of request, .complete result⟩

def entries (store : Store) : List Entry :=
  match store.current with
  | some current => current
  | none => store.legacy.filterMap (LegacyEntry.migrated codec)

/-! ## The bounds -/

/-- The oldest entry but the protected one's is removed. -/
def splice (protectedOperationId : String) : List Entry → Option (List Entry)
  | [] => none
  | entry :: kept =>
    if entry.operationId ≠ protectedOperationId then some kept
    else (splice protectedOperationId kept).map (entry :: ·)

/-- The loop of `bounded`, which removes an entry each time around. -/
def trim (protectedOperationId : String) : ℕ → List Entry → List Entry
  | 0, kept => kept
  | n + 1, kept =>
    if codec.bytes kept > BYTE_LIMIT ∧ kept.length > 1 then
      match splice protectedOperationId kept with
      | some kept => trim protectedOperationId n kept
      | none => kept
    else kept

/-- The newest entries. -/
def newest (current : List Entry) : List Entry := current.drop (current.length - ENTRY_LIMIT)

def bounded (current : List Entry) (protectedOperationId : String) : Option (List Entry) :=
  let kept := trim codec protectedOperationId (newest current).length (newest current)
  if codec.bytes kept > BYTE_LIMIT then none else some kept

/-! ## Writes -/

/-- What becomes of a write: a failed one, and one that the Worker dies in, may have taken effect. -/
inductive Fate where
  | ok
  | fails (took : Bool)
  | dies (took : Bool)

def Fate.took : Fate → Bool
  | .ok => true
  | .fails took | .dies took => took

inductive Answer where
  | returned (result : OperationResult)
  | conflict
  | storage
  /-- The work failed. -/
  | threw
  | died
  deriving DecidableEq

structure State where
  store : Store
  /-- The operations that were stored anew. -/
  appends : ℕ
  /-- The ids whose entry the byte limit removed. -/
  evicted : List String

def State.of (store : Store) : State := ⟨store, 0, []⟩

def start (legacy : List LegacyEntry) : State := State.of ⟨none, legacy⟩

/-- The journal is written; `none` says that it was. -/
def keep (s : State) (current : List Entry) (protectedOperationId : String) (isNew : Bool) (fate : Fate) :
    State × Option Answer :=
  match bounded codec current protectedOperationId with
  | none => (s, some .storage)
  | some kept =>
    let written : State :=
      { store := { s.store with current := some kept }
        appends := s.appends + if isNew then 1 else 0
        evicted := s.evicted ++
          ((newest current).map (·.operationId)).filter fun id => id ∉ kept.map (·.operationId) }
    (if fate.took then written else s, match fate with
      | .ok => none
      | .fails _ => some .storage
      | .dies _ => some .died)

/-- An entry takes the place of the one of its operation. -/
def replace (complete : Entry) : List Entry → List Entry
  | [] => []
  | entry :: rest =>
    if entry.operationId = complete.operationId then complete :: rest else entry :: replace complete rest

def find (current : List Entry) (operationId : String) : Option Entry :=
  current.find? (·.operationId = operationId)

/-! ## Operations -/

inductive Work where
  | result (result : OperationResult)
  | throws
  | dies

structure Script where
  intent : Fate
  work : Work
  complete : Fate

structure Performed where
  state : State
  answer : Answer
  /-- The journal while the work ran, where it did. -/
  ran : Option (List Entry)

/-- The completed entry is stored. -/
def complete (s : State) (kind : OperationKind) (operationId requestDigest : String) (result : OperationResult)
    (fate : Fate) : State × Option Answer :=
  let latest := entries codec s.store
  let entry : Entry := ⟨kind, operationId, requestDigest, .complete result⟩
  match find latest operationId with
  | some found =>
    if found.kind ≠ kind ∨ found.requestDigest ≠ requestDigest then (s, some .conflict)
    else keep codec s (replace entry latest) operationId false fate
  | none => keep codec s (latest ++ [entry]) operationId true fate

/-- From the work on. -/
def work (s : State) (kind : OperationKind) (operationId requestDigest : String) (script : Script) : Performed :=
  let during := entries codec s.store
  match script.work with
  | .throws => ⟨s, .threw, some during⟩
  | .dies => ⟨s, .died, some during⟩
  | .result result =>
    if kind = .task ∧ result.unfinished then ⟨s, .returned result, some during⟩
    else if result.text.utf8ByteSize > RESULT_BYTE_LIMIT then ⟨s, .storage, some during⟩
    else
      match complete codec s kind operationId requestDigest result script.complete with
      | (s, none) => ⟨s, .returned result, some during⟩
      | (s, some answer) => ⟨s, answer, some during⟩

def perform (s : State) (kind : OperationKind) (operationId request : String) (script : Script) : Performed :=
  let requestDigest := codec.sha.of request
  let current := entries codec s.store
  match find current operationId with
  | some found =>
    if found.kind ≠ kind ∨ found.requestDigest ≠ requestDigest then ⟨s, .conflict, none⟩
    else
      match found.state with
      | .complete result => ⟨s, .returned result, none⟩
      | .intent => work codec s kind operationId requestDigest script
  | none =>
    match keep codec s (current ++ [⟨kind, operationId, requestDigest, .intent⟩]) operationId true
      script.intent with
    | (s, none) => work codec s kind operationId requestDigest script
    | (s, some answer) => ⟨s, answer, none⟩

/-- A reset's completed task is copied into the destination's journal. -/
def completeDurableTaskOperation (s : State) (operationId task : String) (result : OperationResult)
    (fate : Fate) : State × Option Answer :=
  if result.text.utf8ByteSize > RESULT_BYTE_LIMIT then (s, some .storage)
  else complete codec s .task operationId (codec.sha.of task) result fate

/-! ## The machine -/

inductive Event where
  | perform (kind : OperationKind) (operationId request : String) (script : Script)
  | copy (operationId task : String) (result : OperationResult) (fate : Fate)

def step (s : State) : Event → State
  | .perform kind operationId request script => (perform codec s kind operationId request script).state
  | .copy operationId task result fate => (completeDurableTaskOperation codec s operationId task result fate).1

end DenEdge.Operations
