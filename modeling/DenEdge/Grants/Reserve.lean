import DenEdge.Base.Run
import DenEdge.Base.Storage
import DenEdge.Grants.Record

/-!
# The library a guest reserves

A live grant reserves one library: the reservation is in the grant's record, and a pointer under the library's id
leads to the record. The record is written first, the pointer after it; the record decides. Reserving and the
sweep of one record run under one lock, so each is one step here, in which any file operation may fail and the
process may die at any of them.

A claim whose pointer was not written is not seen by the next grant that asks, so two grants can be told yes.
Where every claim on an id is found when a grant asks for it, and no reap stops between the pointer and the record
(`Found`), a reservation answered yes stays the guest's: `reservations_stay`.
-/

namespace DenEdge.Grants.Reserve

open Storage

inductive Name where
  | grant (gid : String)
  | lib (id : String)
  deriving DecidableEq

inductive File where
  | record (r : Record)
  | gid (gid : String)

abbrev Files : Type := List (Name × File)

inductive Reply where
  | noContent
  | error (status : ℕ) (code : String)
  deriving DecidableEq

def internal : Failure → Reply
  | .full => .error 507 "storage_full"
  | .other => .error 500 "internal_error"

def load (gid : String) : Filing Name File (Except Failure (Option Record)) :=
  .call (.get (.grant gid)) fun
    | .error e => .done (.error e)
    | .ok none => .done (.ok none)
    | .ok (some (.record r)) => .done (.ok (some r))
    | .ok (some (.gid _)) => .done (.error .other)

def save (r : Record) : Filing Name File (Except Failure Unit) :=
  .call (.put (.grant r.gid) (.record r)) fun
    | .error e => .done (.error e)
    | .ok () => .call .sync .done

/-- The grant whose record claims a library: the pointer is only a way to find it, the record decides. -/
def claimant (id : String) : Filing Name File (Except Failure (Option Record)) :=
  .call (.get (.lib id)) fun
    | .error e => .done (.error e)
    | .ok (some (.gid gid)) =>
      if ¬ validGid gid then .done (.ok none)
      else (load gid).bind fun
        | .error e => .done (.error e)
        | .ok r => .done (.ok (r.filter fun r => r.library.any (·.id = id)))
    | .ok _ => .done (.ok none)

/-- May the first write of a library with this token start it? -/
def reservedFor (id tokenHash : String) : Filing Name File (Except Failure Bool) :=
  if ¬ validHexId id then .done (.ok false)
  else (claimant id).bind fun
    | .error e => .done (.error e)
    | .ok r => .done (.ok (r.any fun r => r.library.any fun l => l.id = id && l.tokenHash = tokenHash))

/-- The pointer after the record, and again on a retry. -/
def point (gid id : String) : Filing Name File Reply :=
  .call (.put (.lib id) (.gid gid)) fun
    | .error e => .done (internal e)
    | .ok () =>
      .call .sync fun
        | .error e => .done (internal e)
        | .ok () => .done .noContent

def claim (r : Record) (id tokenHash : String) : Filing Name File Reply :=
  (claimant id).bind fun
    | .error e => .done (internal e)
    | .ok other =>
      if other.any (·.gid ≠ r.gid) then .done (.error 403 "new_libraries_closed")
      else (save { r with library := some ⟨id, tokenHash⟩ }).bind fun
        | .error e => .done (internal e)
        | .ok () => point r.gid id

/-- Whom a request authenticated as, whose gid is well formed, or how it was refused. -/
abbrev Auth : Type := Except Reply { gid : String // validGid gid = true }

/-- `id` and `tokenHash` are what the body says. -/
def reserveLibrary (limited : Bool) (auth : Auth) (id tokenHash : Option String) (now : ℕ) :
    Filing Name File Reply :=
  if limited then .done (.error 429 "rate_limited")
  else match auth, id.filter (validHexId ·), tokenHash with
  | .error refused, _, _ => .done refused
  | .ok ⟨gid, _⟩, some id, some tokenHash => (load gid).bind fun
    | .error e => .done (internal e)
    | .ok none => .done (.error 404 "not_found")
    | .ok (some r) =>
      if ¬ (r.isLive now && r.redeemedAt.isSome) then .done (.error 404 "not_found")
      else match r.library with
      | some l =>
        if l = ⟨id, tokenHash⟩ then point gid id else .done (.error 403 "new_libraries_closed")
      | none => claim r id tokenHash
  | .ok _, _, _ => .done (.error 400 "bad_request")

/-- The record's file goes; where that fails it is left to the next sweep. -/
def reapRecord (gid : String) : Filing Name File Unit := .call (.delete (.grant gid)) fun _ => .done ()

/-- A sweep at one record. -/
def sweepEntry (gid : String) (now : ℕ) : Filing Name File Unit :=
  (load gid).bind fun
    | .error _ => .done ()
    | .ok none => .done ()
    | .ok (some r) =>
      match r.sweep now with
      | .reap =>
        match r.library with
        -- an unused reservation goes with its grant
        | some l => .call (.delete (.lib l.id)) fun _ => reapRecord gid
        | none => reapRecord gid
      | .keep r' true _ => (save r').bind fun _ => .done ()
      | .keep _ false _ => .done ()

/-- Any other route: it writes a grant's record anew, with the reservation it read. -/
def rewrite (r : Record) : Filing Name File Unit :=
  (load r.gid).bind fun
    | .error _ => .done ()
    | .ok old => (save { r with library := old.bind (·.library) }).bind fun _ => .done ()

/-! ## The machine -/

/-- A reservation that was answered 204. -/
structure Granted where
  gid : String
  id : String
  tokenHash : String
  deriving DecidableEq

structure State where
  files : Files
  /-- The reservations answered 204, of the grants that have not been reaped. -/
  granted : List Granted

def init : State := ⟨[], []⟩

/-- How the operations of a step end, in turn. -/
abbrev Fates : Type := List Storage.Fate

inductive Event where
  | reserve (limited : Bool) (auth : Auth) (id tokenHash : Option String) (now : ℕ) (fates : Fates)
  | sweepEntry (gid : String) (now : ℕ) (fates : Fates)
  | rewrite (r : Record) (fates : Fates)

/-- The reservation a request names. -/
def named (auth : Auth) (id tokenHash : Option String) : Option Granted :=
  match auth with
  | .error _ => none
  | .ok gid => id.bind fun id => tokenHash.map fun tokenHash => ⟨gid, id, tokenHash⟩

/-- The grants of a list whose records are there. -/
def unreaped (files : Files) (l : List Granted) : List Granted :=
  l.filter fun g => (Assoc.get files (.grant g.gid)).isSome

def step (s : State) : Event → State
  | .reserve limited auth id tokenHash now fates =>
    match Storage.run (scripted fates) (reserveLibrary limited auth id tokenHash now) s.files with
    | (files, some .noContent) =>
      ⟨files, unreaped files ((named auth id tokenHash).toList ++ s.granted)⟩
    | (files, _) => ⟨files, unreaped files s.granted⟩
  | .sweepEntry gid now fates =>
    let files := (Storage.run (scripted fates) (sweepEntry gid now) s.files).1
    ⟨files, unreaped files s.granted⟩
  | .rewrite r fates =>
    let files := (Storage.run (scripted fates) (rewrite r) s.files).1
    ⟨files, unreaped files s.granted⟩

end DenEdge.Grants.Reserve
