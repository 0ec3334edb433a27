import DenEdge.Base.Run
import DenEdge.Reset.Handlers

/-!
# Key resets, request by request

The server as key resets see it: its libraries, and the sweeps that are running. A request is one event, taken
whole under the slots of the libraries it locks; a sweep holds none between its commits, so each of its commits is
an event of its own. `crash` ends every running sweep.

An ordinary write is any change of rows, head and generations that leaves the wire minimum no lower; a library
that is locked takes none.
-/

namespace DenEdge.Reset

variable (hex : Hash → String)

/-- A running sweep: the household, the list it read there, and what of the list is left. -/
structure SweepTask where
  household : String
  owed : Owed
  successors : List String
  members : List String
  deriving DecidableEq

/-- The libraries, and the sweeps that run. -/
structure Server where
  libs : Libraries
  sweeps : List SweepTask

/-- What an ordinary write or a restored file's owner may change of a library's store. -/
structure Change where
  wireMin : ℕ
  generation : String
  migrationGeneration : ℕ
  head : ℕ
  digest : String
  hasRows : Bool

def Change.apply (c : Change) (v : Vault) : Vault :=
  { v with
    wireMin := max v.wireMin c.wireMin
    generation := c.generation
    migrationGeneration := c.migrationGeneration
    head := c.head
    digest := c.digest
    hasRows := c.hasRows }

/-- A library as its first write makes it. -/
def newVault (token : Hash) (c : Change) : Vault where
  token := token
  wireMin := c.wireMin
  generation := c.generation
  migrationGeneration := c.migrationGeneration
  head := c.head
  digest := c.digest
  hasRows := c.hasRows
  key := none
  reset := none
  sweep := none
  entries := fun _ => none

inductive Event where
  | post (p : Post)
  | successorCommit (r : HouseholdRequest)
  | abort (r : HouseholdRequest)
  | retire (r : RetireRequest)
  /-- A first write, or a write to a library that is there. -/
  | write (id : String) (token : Hash) (change : Change)
  /-- A library's owner deletes it outside any reset. -/
  | forget (id : String) (token : Hash) (successor : String)
  | sweepStart (household : String)
  /-- The next commit of a running sweep; `fails` is an error that ends it. -/
  | sweepStep (task : ℕ) (fails : Bool)
  | crash

variable (libs : Libraries)

/-- An ordinary write: a new library, or one that no lock holds. -/
def writeEvent (id : String) (token : Hash) (change : Change) : Libraries :=
  match libs id with
  | .absent => Function.update libs id (.stored (newVault token change))
  | .moved _ => libs
  | .stored v =>
    if v.token ≠ token then libs
    else match writeBlocked libs v with
      | none => libs
      | some v => Function.update libs id (.stored (change.apply v))

def forgetEvent (id : String) (token : Hash) (successor : String) : Libraries :=
  match libs id with
  | .stored v =>
    if v.token ≠ token then libs
    else match writeBlocked libs v with
      | none => libs
      | some _ => Function.update libs id (.moved (.bare successor))
  | _ => libs

/-- Retire one declared successor library if it exists. -/
def deleteSuccessor (id : String) : Libraries :=
  match libs id with
  | .stored _ => Function.update libs id (.moved (.bare ""))
  | _ => libs

/-- Record that a household is swept, unless a newer list replaced the one that was. -/
def sweepDone (v : Vault) (owed : Owed) : Vault :=
  ((v.commit { Edit.new .any .keep with
    expectSweep := some (some owed)
    putSweep := some none }).toOption).getD v

/-- Change the store of a library that is there. -/
def onVault (id : String) (f : Vault → Vault) : Libraries :=
  match libs id with
  | .stored v => Function.update libs id (.stored (f v))
  | _ => libs

/-- The next commit of a sweep: a successor, then a member, then the household's own record. -/
def sweepCommit (task : SweepTask) : Libraries × Option SweepTask :=
  match task.successors, task.members with
  | successor :: rest, _ => (deleteSuccessor libs successor, some { task with successors := rest })
  | [], member :: rest =>
    (onVault libs member (clearVoidMember · task.owed.attempt), some { task with members := rest })
  | [], [] => (onVault libs task.household (sweepDone · task.owed), none)

def sweepStart (s : Server) (household : String) : Server :=
  match (s.libs household).vault.bind Vault.sweep with
  | none => s
  | some owed => { s with sweeps := s.sweeps ++ [⟨household, owed, owed.successors, owed.members⟩] }

def sweepStep (s : Server) (i : ℕ) (fails : Bool) : Server :=
  match s.sweeps[i]? with
  | none => s
  | some task =>
    if fails then { s with sweeps := s.sweeps.eraseIdx i }
    else
      match sweepCommit s.libs task with
      | (libs, none) => ⟨libs, s.sweeps.eraseIdx i⟩
      | (libs, some task) => ⟨libs, s.sweeps.set i task⟩

def Server.step (s : Server) : Event → Server
  | .post p => { s with libs := (post hex s.libs p).1 }
  | .successorCommit r => { s with libs := (successorCommit hex s.libs r).1 }
  | .abort r => { s with libs := (abortRequest hex s.libs r).1 }
  | .retire r => { s with libs := (retireRequest hex s.libs r).1 }
  | .write id token change => { s with libs := writeEvent s.libs id token change }
  | .forget id token successor => { s with libs := forgetEvent s.libs id token successor }
  | .sweepStart household => sweepStart s household
  | .sweepStep i fails => sweepStep s i fails
  | .crash => { s with sweeps := [] }

/-- A server with no library yet. -/
def Server.empty : Server := ⟨fun _ => .absent, []⟩

end DenEdge.Reset
