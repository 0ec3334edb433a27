import DenEdge.Store.Site

/-!
# A library's file and the index beside it

The store manager keeps, outside each library's file, what it last saw of it: the protocol index. Opening a
library matches its file with its entry, and every commit of a lease that moves the protocol is recorded there.
The machine here is one library under both: its file, its entry, the handle on it, and every state the file has
been in, any of which may be put back while the server is down.

* `Shelf.library`: opening, `StoreManager::library`.
* `Shelf.step`: the operations of a lease, restarts and restores.
-/

namespace DenEdge

def IndexedProtocol.of (p : Protocol) : IndexedProtocol :=
  ⟨p.generation, p.head, p.wireMin, p.migrationGeneration⟩

/-- A library's file, what the index knows of it, and its open handle. -/
structure Shelf where
  /-- `none` where the library has no file yet. -/
  file : Option Db
  /-- The library's entry in the protocol index. -/
  index : Option IndexedProtocol
  handle : Option Handle
  /-- Every state the file has been in: what a restore may put back. -/
  copies : List Db
  /-- Every generation drawn so far. -/
  drawn : List String

inductive ShelfEvent where
  /-- Open the library. `first` is drawn if the file needs a generation, `second` if it was restored. -/
  | library (token : Hash) (first second : String)
  | apply (writes : List Write) (liveCap wireMin : ℕ) (tier : VisitorTier) (authority : WriteAuthority)
  | rewrite (base : ℕ) (rows : List RewriteRow) (wireMin liveCap : ℕ) (fresh : String)
  | registerMember (member : Hash)
  | exclusive (edit : ExclusiveEdit)
  | restart
  /-- The server is stopped, and one of the states the file has been in put back. -/
  | restore (copy : ℕ)

/-- The generations an event draws. -/
def ShelfEvent.draws : ShelfEvent → List String
  | .library _ first second => [first, second]
  | .rewrite _ _ _ _ fresh => [fresh]
  | _ => []

namespace Shelf

/-- The file in a new state. -/
def commit (s : Shelf) (db : Db) : Shelf := { s with file := some db, copies := db :: s.copies }

/-- `ProtocolIndex::record` -/
def record (s : Shelf) (p : Protocol) : Shelf := { s with index := some (IndexedProtocol.of p) }

/-- What the open library says of itself. -/
def reports (s : Shelf) : Option Protocol :=
  if s.handle.isSome then s.file.bind (fun db => (readProtocol db).toOption) else none

variable (codec : FragmentCodec)

/-- Open the library: its file is opened or created, matched with its entry, and the outcome recorded. A file the
open created and could not finish is removed again. -/
def library (s : Shelf) (token : Hash) (first second : String) :
    Shelf × Except StoreError Bool :=
  match s.handle with
  | some handle => (s, if handle.tokenHash = token then .ok false else .error .forbidden)
  | none =>
    match openStore codec (s.file.getD Db.empty) token none first with
    | .error error => (s, .error error)
    | .ok (db, cached) =>
      match reconcileProtocol db s.index s.file.isNone second with
      | .error error => (s.commit db, .error error)
      | .ok (db', p) => ({ ((s.commit db).commit db').record p with handle := some ⟨token, cached⟩ }, .ok false)

/-- A lease registers a member hash, and records the protocol if that changed anything. -/
def register (s : Shelf) (db : Db) (handle : Handle) (member : Hash) : Shelf × Except StoreError Bool :=
  match DenEdge.registerMember db handle.memberHash member with
  | .error error => (s, .error error)
  | .ok (_, false) => (s, .ok false)
  | .ok (db', true) =>
    let s' := { s.commit db' with handle := some { handle with memberHash := some member } }
    match readProtocol db' with
    | .error error => (s', .error error)
    | .ok p => (s'.record p, .ok true)

/-- One event, on a shelf whose draws are noted. The answer is whether a mutation was accepted. -/
def act (s : Shelf) (e : ShelfEvent) : Shelf × Except StoreError Bool :=
  match e, s.handle, s.file with
  | .library token first second, _, _ => s.library codec token first second
  | .restart, _, _ => ({ s with handle := none }, .ok false)
  | .restore copy, _, _ =>
    match s.copies[copy]? with
    | none => (s, .ok false)
    | some db => ({ s with file := some db, handle := none }, .ok false)
  | .apply writes liveCap wireMin tier authority, some _, some db =>
    match applyTiered db writes liveCap wireMin tier authority with
    | .error error => (s, .error error)
    | .ok (db', r) => ((s.commit db').record r.protocol, .ok (!r.applied.isEmpty))
  | .rewrite base rows wireMin liveCap fresh, some _, some db =>
    match DenEdge.rewrite db base rows wireMin liveCap fresh with
    | .error error => (s, .error error)
    | .ok (db', p) => ((s.commit db').record p, .ok true)
  | .registerMember member, some handle, some db => s.register db handle member
  | .exclusive edit, some _, some db =>
    match exclusiveCommit db edit with
    | .error error => (s, .error error)
    | .ok db' => (s.commit db', .ok false)
  | _, _, _ => (s, .ok false)

def step (s : Shelf) (e : ShelfEvent) : Shelf × Except StoreError Bool :=
  act codec { s with drawn := e.draws ++ s.drawn } e

def run (s : Shelf) (es : List ShelfEvent) : Shelf :=
  Run.exec (fun s e => (s.step codec e).1) s es

/-- The generations an event draws are new, and differ from each other. -/
def Fresh (s : Shelf) (e : ShelfEvent) : Prop := e.draws.Nodup ∧ ∀ g ∈ e.draws, g ∉ s.drawn

instance (s : Shelf) (e : ShelfEvent) : Decidable (s.Fresh e) := by
  unfold Fresh
  infer_instance

/-- Where a run starts: nothing is recorded and nobody has the library open. It has no file, or one imported or
written before there was an index. -/
structure Start (s : Shelf) : Prop where
  index : s.index = none
  closed : s.handle = none
  copies : s.copies = s.file.toList
  stores : ∀ db ∈ s.file, OldStore db ∨ PackedStore db
  drawn : ∀ db ∈ s.file, ∀ g ∈ db.generation, g ∈ s.drawn

end Shelf

end DenEdge
