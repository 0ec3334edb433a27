import DenEdge.Reset.Model
import DenEdge.Store.Lifecycle

/-!
# What a key reset stores

The records a key reset keeps beside a library's exclusive-operation lock, as values (`Record`, `Entry`, `Owed`),
the marker that replaces a library once it is retired, and the one compare-and-set commit that edits them. `Vault`
is one library's store as key resets see it, the records typed where the library's own tables hold them as JSON.

`view` is a library as the decisions of `Reset.Model` see it, and `buildWorld` the world of one request: the
libraries it looks at and no others.
-/

namespace DenEdge.Reset

/-! ## Records -/

structure Fence where
  generation : ℕ
  base : ℕ
  head : String
  deriving DecidableEq

/-- A previous owner of a household's lock, and the attempt that took it over. -/
structure Link where
  attempt : String
  by' : String
  deriving DecidableEq

/-- A library's current key-reset lock. A household's is the authority over the reset; a profile library's is
subordinate to it. -/
structure Record where
  /-- The attempt that acquired the lock. -/
  attempt : String
  /-- Who may act on it now: the acquiring attempt, or the recovery that took it over. -/
  owner : String
  role : Role
  phase : Phase
  lock : String
  wireMin : ℕ
  fence : Fence
  successor : String
  members : List Member
  household : Option String
  proven : Bool
  chain : List Link
  preexisting : List String
  deriving DecidableEq

/-- What is owed once a household has decided against its reset: successors to delete, member locks to clear. -/
structure Owed where
  attempt : String
  successors : List String
  members : List String
  deriving DecidableEq

inductive EntryKind where
  | reset
  | recovery
  deriving DecidableEq

inductive EntryState where
  | active
  | aborted
  | recovered
  | completed
  deriving DecidableEq

inductive Outcome where
  | aborted
  | retired
  deriving DecidableEq

structure Recovers where
  attempt : String
  phase : Phase
  successor : String
  members : List Member

/-- Everything one attempt asked and was told on one library. -/
structure Entry where
  kind : EntryKind
  role : Role
  state : EntryState
  by' : Option String
  outcome : Option Outcome
  source : Source
  fence : Fence
  wireMin : ℕ
  lock : String
  successor : Option String
  members : List Member
  household : Option String
  recovers : Option Recovers

structure Tombstone where
  lock : String
  acquired : String
  owner : String
  role : Role
  household : Option String
  chain : List Link
  members : List Member
  deriving DecidableEq

/-- What a retired library keeps in place of its database: a bare successor tag, or a key reset's terminal record.
-/
inductive Marker where
  | bare (successor : String)
  | exclusive (successor : String) (tombstone : Tombstone)
  deriving DecidableEq

/-- One library's store as key resets see it. -/
structure Vault where
  token : Hash
  wireMin : ℕ
  generation : String
  migrationGeneration : ℕ
  head : ℕ
  /-- The digest of the rows (`snapshot::source`). -/
  digest : String
  hasRows : Bool
  /-- `exclusive-operation-lock` -/
  key : Option String
  /-- `exclusive:reset` -/
  reset : Option Record
  /-- `exclusive:sweep` -/
  sweep : Option Owed
  /-- `exclusive:attempt:<attempt>` -/
  entries : String → Option Entry

/-- One library: never made, stored, or retired. -/
inductive Library where
  | absent
  | stored (vault : Vault)
  | moved (marker : Marker)

def Library.vault : Library → Option Vault
  | .stored vault => some vault
  | _ => none

def Library.marker : Library → Option Marker
  | .moved marker => some marker
  | _ => none

/-- The exclusive key and the record of a library that is stored. -/
def Library.key (library : Library) : Option String := library.vault.bind Vault.key

def Library.reset (library : Library) : Option Record := library.vault.bind Vault.reset

theorem Library.reset_eq_some {library : Library} {record : Record} (h : library.reset = some record) :
    ∃ v, library = .stored v ∧ v.reset = some record := by
  cases library with
  | stored v => exact ⟨v, rfl, h⟩
  | absent => cases h
  | moved m => cases h

/-! ## Commits -/

/-- One commit on one library: what it expects of the lock, the source and the records it read, and what it puts.
-/
structure Edit where
  expectLock : LockExpect
  expectSource : Option (ℕ × ℕ)
  expectReset : Option (Option Record)
  expectSweep : Option (Option Owed)
  lock : LockChange
  putReset : Option Record
  putSweep : Option (Option Owed)
  putEntries : List (String × Entry)

/-- An edit of the lock that expects and puts nothing else yet. -/
def Edit.new (expectLock : LockExpect) (lock : LockChange) : Edit where
  expectLock := expectLock
  expectSource := none
  expectReset := none
  expectSweep := none
  lock := lock
  putReset := none
  putSweep := none
  putEntries := []

def putEntry (entries : String → Option Entry) (entry : String × Entry) : String → Option Entry :=
  Function.update entries entry.1 (some entry.2)

def Vault.commit (v : Vault) (edit : Edit) : Except StoreError Vault :=
  if edit.expectSource.any (fun source => (v.migrationGeneration, v.head) ≠ source) then
    .error (.invalid "migration_source_changed")
  else if ¬ edit.expectLock.admits v.key then .error .locked
  else if edit.expectReset.any (fun expected => v.reset ≠ expected) ∨
      edit.expectSweep.any (fun expected => v.sweep ≠ expected) then
    .error (.invalid "exclusive_precondition")
  else .ok { v with
    key := edit.lock.apply v.key
    reset := edit.putReset <|> v.reset
    sweep := edit.putSweep.getD v.sweep
    entries := edit.putEntries.foldl putEntry v.entries }

/-! ## A library as the decisions see it -/

def Record.model (record : Record) (swept : Bool) : Lock where
  attempt := record.attempt
  owner := if record.role = .household then record.owner else ""
  purpose := PURPOSE
  role := record.role
  phase := record.phase
  source := ⟨record.fence.generation, record.fence.head⟩
  successor := record.successor
  members := record.members
  household := record.household
  swept := swept
  proven := record.proven
  preexisting := record.preexisting

def Record.owed (record : Record) : Owed where
  attempt := record.attempt
  successors := (record.successor :: record.members.map Member.successor).filter
    fun id => ¬ record.preexisting.contains id
  members := record.members.map Member.libraryId

def dummySource : Source := ⟨0, String.ofList (List.replicate 64 '0')⟩

def tombstoneLock (successor : String) (tombstone : Tombstone) : Lock where
  attempt := tombstone.acquired
  owner := tombstone.owner
  purpose := PURPOSE
  role := tombstone.role
  phase := .retired
  source := dummySource
  successor := successor
  members := tombstone.members
  household := tombstone.household
  swept := false
  proven := true
  preexisting := []

/-- A holder of the key that is not a key reset. -/
def foreignLock (key : String) : Lock where
  attempt := key
  owner := key
  purpose := "migration"
  role := .household
  phase := .opened
  source := dummySource
  successor := ""
  members := []
  household := none
  swept := false
  proven := true
  preexisting := []

/-- The lock of a library: its record while the key names it, any other holder of the key, or a record that ended.
-/
def modelLock (key : Option String) (record : Option Record) (pendingSweep : Bool) : Option Lock :=
  match key, record with
  | some key, some record =>
    if record.phase ≠ .aborted ∧ (key = record.owner ∨ key = record.attempt) then some (record.model false)
    else some (foreignLock key)
  | some key, none => some (foreignLock key)
  | none, some record => if record.phase = .aborted then some (record.model (!pendingSweep)) else none
  | none, none => none

def Vault.source (v : Vault) : Source := ⟨v.migrationGeneration, v.digest⟩

def Vault.fence (v : Vault) : Fence := ⟨v.migrationGeneration, v.head, v.digest⟩

def Vault.lock (v : Vault) : Option Lock := modelLock v.key v.reset v.sweep.isSome

def markerRole : Marker → Option LibRole
  | .bare _ => none
  | .exclusive _ tombstone => some (match tombstone.role with
    | .household => .household
    | .profile => .profile)

def markerLock : Marker → Option Lock
  | .bare _ => none
  | .exclusive successor tombstone => some (tombstoneLock successor tombstone)

/-- A library as the model sees it, its source only where the request compares it. Credentials are shown in hex.
-/
def view (hex : Hash → String) (library : Library) (role : Option LibRole) (wantSource : Bool) : Option Lib :=
  match library with
  | .absent => none
  | .moved marker => some {
      role := (markerRole marker <|> role).getD .profile
      wireMin := 0
      source := dummySource
      rows := 0
      retired := true
      lock := markerLock marker
      credential := none
      exist := true }
  | .stored v => some {
      role := role.getD (if 5 ≤ v.wireMin then .household else .profile)
      wireMin := v.wireMin
      source := if wantSource then v.source else dummySource
      rows := if v.hasRows then 1 else 0
      retired := false
      lock := v.lock
      credential := some (hex v.token)
      exist := true }

/-- The libraries of every id. -/
abbrev Libraries := String → Library

/-- Add a library to a world, if there is one. -/
def World.add (world : World) (id : String) (seen : Option Lib) : World :=
  Function.update world id (seen <|> world id)

/-- The world of a request on `target`: its peers, a later one over an earlier one of the same id. -/
def buildWorld (hex : Hash → String) (libs : Libraries) (target : String) (wantSource : Bool) :
    List (String × Option LibRole) → World → World
  | [], world => world
  | (id, role) :: peers, world =>
    buildWorld hex libs target wantSource peers
      (world.add id (view hex (libs id) role (wantSource && id = target)))

def noWorld : World := fun _ => none

end DenEdge.Reset
