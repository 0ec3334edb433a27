import DenEdge.Base.Run
import DenEdge.Base.Storage

/-!
# Recovery codes

The sealed library key a device stores under a locator. On disk: one file per library with its entries, and one
per locator that names the library it belongs to. Every route below runs under one lock, so each is one step, in
which any file operation may fail and the process may die at any of them.
-/

namespace DenEdge.Recovery

open Storage

def VERSION : ℕ := 1

/-- A live code, one being made, and room for clean-up. -/
def MAX_PER_LIBRARY : ℕ := 4

def SEALED_MIN : ℕ := 38

def SEALED_MAX : ℕ := 512

/-- A recovery code of a library. -/
structure Entry where
  locator : String
  sealed : String
  createdAt : ℕ
  opens : ℕ
  lastOpenedAt : Option ℕ
  deriving DecidableEq

structure Entries where
  v : ℕ
  entries : List Entry
  deriving DecidableEq

inductive Name where
  | lib (id : String)
  | loc (locator : String)
  deriving DecidableEq

inductive File where
  | entries (entries : Entries)
  | owner (id : String)
  deriving DecidableEq

abbrev Files : Type := List (Name × File)

/-- 16 bytes as lowercase hex. -/
def validLocator (s : String) : Bool := s.length = 32 && s.toList.all fun c => c.isDigit || ('a' ≤ c && c ≤ 'f')

/-- Unpadded base64url within its bounds. -/
def validSealed (s : String) : Bool :=
  SEALED_MIN ≤ s.length && s.length ≤ SEALED_MAX && s.length % 4 ≠ 1 &&
    s.toList.all fun c => c.isAlphanum || c = '-' || c = '_'

inductive Reply where
  | created (createdAt : ℕ)
  | deleted (deleted : Bool)
  | sealed (sealed : String)
  | error (status : ℕ) (code : String)
  deriving DecidableEq

def Reply.isCreated : Reply → Bool
  | .created _ => true
  | _ => false

def internal : Failure → Reply
  | .full => .error 507 "storage_full"
  | .other => .error 500 "internal_error"

/-! ## The files -/

variable (id : String)

def load : Filing Name File (Except Failure Entries) :=
  .call (.get (.lib id)) fun
    | .error e => .done (.error e)
    | .ok none => .done (.ok ⟨VERSION, []⟩)
    | .ok (some (.entries es)) => .done (if VERSION < es.v then .error .other else .ok es)
    | .ok (some (.owner _)) => .done (.error .other)

def save (es : Entries) : Filing Name File (Except Failure Unit) :=
  if es.entries = [] then .call (.delete (.lib id)) .done else .call (.put (.lib id) (.entries es)) .done

/-- The library a locator's entry belongs to. -/
def ownerOf (locator : String) : Filing Name File (Except Failure (Option String)) :=
  .call (.get (.loc locator)) fun
    | .error e => .done (.error e)
    | .ok (some (.owner id)) => .done (.ok (some id))
    | .ok _ => .done (.ok none)

/-! ## The routes -/

/-- The library's file first, then the locator's. -/
def createEntry (locator sealed : String) (now : ℕ) (es : Entries) : Filing Name File Reply :=
  (save id { es with entries := es.entries ++ [⟨locator, sealed, now, 0, none⟩] }).bind fun
    | .error e => .done (internal e)
    | .ok () =>
      .call (.put (.loc locator) (.owner id)) fun
        | .error e => .done (internal e)
        | .ok () =>
          .call .sync fun
            | .error e => .done (internal e)
            | .ok () => .done (.created now)

/-- `member` is whether the proof still holds under the lock. -/
def create (member : Bool) (locator sealed : Option String) (now : ℕ) : Filing Name File Reply :=
  match locator.filter (validLocator ·), sealed.filter (validSealed ·) with
  | some locator, some sealed =>
    if ¬ member then .done (.error 403 "forbidden")
    else (ownerOf locator).bind fun
      | .error e => .done (internal e)
      | .ok (some _) => .done (.error 409 "locator_taken")
      | .ok none => (load id).bind fun
        | .error e => .done (internal e)
        | .ok es =>
          if MAX_PER_LIBRARY ≤ es.entries.length then .done (.error 409 "recovery_full")
          else createEntry id locator sealed now es
  | _, _ => .done (.error 400 "bad_request")

/-- The locator's file first, so the entry stops opening before it stops being listed. -/
def removeEntry (locator : String) (es : Entries) : Filing Name File Reply :=
  .call (.delete (.loc locator)) fun
    | .error e => .done (internal e)
    | .ok () => (save id es).bind fun
      | .error e => .done (internal e)
      | .ok () =>
        .call .sync fun
          | .error e => .done (internal e)
          | .ok () => .done (.deleted true)

def remove (locator : Option String) : Filing Name File Reply :=
  match locator.filter (validLocator ·) with
  | none => .done (.error 400 "bad_request")
  | some locator => (load id).bind fun
    | .error e => .done (internal e)
    | .ok es =>
      if (es.entries.filter (·.locator ≠ locator)).length = es.entries.length then .done (.deleted false)
      else removeEntry id locator { es with entries := es.entries.filter (·.locator ≠ locator) }

/-- One more open of the first entry of a locator. -/
def count (locator : String) (now : ℕ) : List Entry → List Entry
  | [] => []
  | e :: rest =>
    if e.locator = locator then { e with opens := e.opens + 1, lastOpenedAt := some now } :: rest
    else e :: count locator now rest

/-- The count is advisory: a failure to record it does not keep the person out. -/
def countOpen (es : Entries) (sealed : String) : Filing Name File Reply :=
  (save id es).bind fun
    | .error _ => .done (.sealed sealed)
    | .ok () => .call .sync fun _ => .done (.sealed sealed)

def openCode (locator : Option String) (now : ℕ) : Filing Name File Reply :=
  match locator.filter (validLocator ·) with
  | none => .done (.error 400 "bad_request")
  | some locator => (ownerOf locator).bind fun
    | .error e => .done (internal e)
    | .ok none => .done (.error 404 "unknown_code")
    | .ok (some id) => (load id).bind fun
      | .error e => .done (internal e)
      | .ok es =>
        match es.entries.find? (·.locator = locator) with
        | none => .done (.error 404 "unknown_code")
        | some entry => countOpen id { es with entries := count locator now es.entries } entry.sealed

def deleteLocators : List Entry → Filing Name File (Except Failure Unit)
  | [] => .done (.ok ())
  | e :: rest =>
    .call (.delete (.loc e.locator)) fun
      | .error err => .done (.error err)
      | .ok () => deleteLocators rest

def deleteLibrary : Filing Name File (Except Failure Unit) :=
  (load id).bind fun
    | .error e => .done (.error e)
    | .ok es => (deleteLocators es.entries).bind fun
      | .error e => .done (.error e)
      | .ok () =>
        .call (.delete (.lib id)) fun
          | .error e => .done (.error e)
          | .ok () => .call .sync .done

/-! ## The machine -/

/-- A code as its `create` was answered. -/
structure Code where
  library : String
  locator : String
  sealed : String
  deriving DecidableEq

structure State where
  files : Files
  /-- The codes whose create was answered 201, until their library removes them or is deleted. -/
  live : List Code

def init : State := ⟨[], []⟩

/-- How the operations of a request end, in turn. -/
abbrev Fates : Type := List Fate

inductive Event where
  | create (id : String) (member : Bool) (locator sealed : Option String) (now : ℕ) (fates : Fates)
  | remove (id : String) (locator : Option String) (fates : Fates)
  | openCode (locator : Option String) (now : ℕ) (fates : Fates)
  | deleteLibrary (id : String) (fates : Fates)

/-- A request that changed nothing removed nothing. -/
def State.drop (s : State) (files : Files) (gone : Code → Bool) : State :=
  ⟨files, if files = s.files then s.live else s.live.filter fun c => !gone c⟩

def step (s : State) : Event → State
  | .create id member locator sealed now fates =>
    match Storage.run (scripted fates) (create id member locator sealed now) s.files with
    | (files, some reply) =>
      ⟨files, if reply.isCreated then ⟨id, locator.getD "", sealed.getD ""⟩ :: s.live else s.live⟩
    | (files, none) => { s with files := files }
  | .remove id locator fates =>
    s.drop (Storage.run (scripted fates) (remove id locator) s.files).1
      fun c => c.library = id && some c.locator = locator
  | .openCode locator now fates =>
    { s with files := (Storage.run (scripted fates) (openCode locator now) s.files).1 }
  | .deleteLibrary id fates =>
    s.drop (Storage.run (scripted fates) (deleteLibrary id) s.files).1 fun c => c.library = id

end DenEdge.Recovery
