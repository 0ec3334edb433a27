import DenEdge.Base.Digest
import DenEdge.Base.Run
import DenEdge.Base.Storage

/-!
# Playback receipts

A one-use capability to queue one sealed result for a library. On disk: one table of the capabilities, and one
queue per library. The queue entry is the first binding of a capability to its ciphertext; the table takes a copy,
which outlives the entry. `authorize`, `callback`, `ack` and the deletion of a library run under one lock, so each
is one step, in which any file operation may fail and the process may die at any of them; `drain` only reads.

What was ever queued and answered is kept beside the files.
-/

namespace DenEdge.Receipts

open Storage

def TTL_MS : ℕ := 7 * 86400000

def MAX_QUEUED : ℕ := 100

def MAX_CALLBACKS : ℕ := 512

/-- `u64::saturating_add`. -/
def saturatingAdd (a b : ℕ) : ℕ := min (a + b) (2 ^ 64 - 1)

theorem saturatingAdd_mono {a a' : ℕ} (h : a ≤ a') (b : ℕ) : saturatingAdd a b ≤ saturatingAdd a' b := by
  unfold saturatingAdd
  omega

/-- The copy of a binding that survives acknowledgement: a digest of the ciphertext, and the entry's number. -/
structure Accepted where
  sealed : String
  seq : ℕ

/-- A capability to send one receipt. -/
structure Callback where
  hash : String
  token : String
  request : String
  library : String
  kid : String
  publicKey : String
  id : String
  expiresAt : ℕ
  accepted : Option Accepted
  bindingVersion : ℕ

/-- A receipt that is queued. -/
structure Entry where
  seq : ℕ
  sealed : String
  callback : String
  receivedAt : ℕ
  deriving DecidableEq

structure Queue where
  next : ℕ
  messages : List Entry

structure PlaybackContext where
  library : String
  kid : String
  publicKey : String
  id : String
  token : String

/-- The key a library published for what is sealed to it. -/
structure Dropbox where
  kid : String
  pk : String

inductive Name where
  | callbacks
  | queue (library : String)
  deriving DecidableEq

inductive File where
  | callbacks (entries : List Callback)
  | queue (queue : Queue)

abbrev Files : Type := List (Name × File)

inductive Reply where
  | accepted (seq queued : ℕ)
  | acked (queued : ℕ)
  | error (status : ℕ) (code : String)

def Reply.seq : Reply → Option ℕ
  | .accepted seq _ => some seq
  | _ => none

def internal : Failure → Reply
  | .full => .error 507 "storage_full"
  | .other => .error 500 "internal_error"

/-! ## The files -/

/-- The capabilities that have not expired. -/
def live (now : ℕ) (l : List Callback) : List Callback := l.filter (now < ·.expiresAt)

/-- The entries that have not aged out, and a number that is never 0. -/
def Queue.at (q : Queue) (now : ℕ) : Queue :=
  ⟨max q.next 1, q.messages.filter (now < saturatingAdd ·.receivedAt TTL_MS)⟩

def loadCallbacks (now : ℕ) : Filing Name File (Except Failure (List Callback)) :=
  .call (.get .callbacks) fun
    | .error e => .done (.error e)
    | .ok none => .done (.ok [])
    | .ok (some (.callbacks l)) => .done (.ok (live now l))
    | .ok (some (.queue _)) => .done (.error .other)

def saveCallbacks (l : List Callback) : Filing Name File (Except Failure Unit) :=
  .call (.put .callbacks (.callbacks l)) .done

def loadQueue (library : String) (now : ℕ) : Filing Name File (Except Failure Queue) :=
  .call (.get (.queue library)) fun
    | .error e => .done (.error e)
    | .ok none => .done (.ok ⟨1, []⟩)
    | .ok (some (.queue q)) => .done (.ok (q.at now))
    | .ok (some (.callbacks _)) => .done (.error .other)

def saveQueue (library : String) (q : Queue) : Filing Name File (Except Failure Unit) :=
  .call (.put (.queue library) (.queue q)) .done

/-! ## Authorising a playback -/

def Callback.context (c : Callback) : PlaybackContext := ⟨c.library, c.kid, c.publicKey, c.id, c.token⟩

variable (sha : Digest)

/-- `dropbox` is what the library's published key reads as, `token` and `id` what would be drawn, `now` and
`later` the two readings of the clock. -/
def authorize (library request : String) (dropbox : Except Failure (Option Dropbox)) (token id : String)
    (now later : ℕ) : Filing Name File (Except Failure (Option PlaybackContext)) :=
  match dropbox with
  | .error e => .done (.error e)
  | .ok none => .done (.ok none)
  | .ok (some dropbox) => (loadCallbacks now).bind fun
    | .error e => .done (.error e)
    | .ok table =>
      match table.find? fun c => c.library = library && c.request = sha.of request with
      | some record => .done (.ok (some record.context))
      | none =>
        if MAX_CALLBACKS ≤ table.length then .done (.ok none)
        else
          (saveCallbacks (table ++ [⟨sha.of token, token, sha.of request, library, dropbox.kid, dropbox.pk, id,
            saturatingAdd later TTL_MS, none, 1⟩])).bind fun
            | .error e => .done (.error e)
            | .ok () => .done (.ok (some ⟨library, dropbox.kid, dropbox.pk, id, token⟩))

/-! ## The callback -/

/-- The first capability of a hash changed. -/
def changeFirst (hash : String) (f : Callback → Callback) : List Callback → List Callback
  | [] => []
  | c :: rest => if c.hash = hash then f c :: rest else c :: changeFirst hash f rest

/-- The table with a binding, then the answer. -/
def bindRecord (table : List Callback) (seq queued : ℕ) : Filing Name File Reply :=
  (saveCallbacks table).bind fun
    | .error e => .done (internal e)
    | .ok () =>
      .call .sync fun
        | .error e => .done (internal e)
        | .ok () => .done (.accepted seq queued)

/-- The queue with a new entry, then the table with its binding. -/
def enqueue (table : List Callback) (library : String) (queue : Queue) (hash sealed : String) (now : ℕ) :
    Filing Name File Reply :=
  (saveQueue library ⟨queue.next + 1, queue.messages ++ [⟨queue.next, sealed, hash, now⟩]⟩).bind fun
    | .error e => .done (internal e)
    | .ok () =>
      .call .sync fun
        | .error e => .done (internal e)
        | .ok () =>
          bindRecord (changeFirst hash (fun c => { c with accepted := some ⟨sha.of sealed, queue.next⟩ }) table)
            queue.next (queue.messages.length + 1)

/-- A ciphertext for a capability of the table, its library's queue read. -/
def receive (table : List Callback) (record : Callback) (queue : Queue) (hash sealed : String) (now : ℕ) :
    Filing Name File Reply :=
  match record.accepted, queue.messages.find? (·.callback = hash) with
  | some accepted, existing =>
    if accepted.sealed ≠ sha.of sealed then .done (.error 409 "callback_conflict")
    else if existing.any fun e => e.seq ≠ accepted.seq || e.sealed ≠ sealed then .done (internal .other)
    -- absence means the entry was acknowledged or aged out: it must not recreate delivery work
    else .done (.accepted accepted.seq queue.messages.length)
  | none, some existing =>
    if existing.sealed ≠ sealed then .done (.error 409 "callback_conflict")
    -- an interruption after the queue was written
    else
      bindRecord (changeFirst hash (fun c =>
        { c with accepted := some ⟨sha.of sealed, existing.seq⟩, bindingVersion := 1 }) table)
        existing.seq queue.messages.length
  | none, none =>
    if record.bindingVersion ≠ 1 then .done (.error 401 "invalid_callback")
    else if MAX_QUEUED ≤ queue.messages.length then .done (.error 409 "queue_full")
    else enqueue sha table record.library queue hash sealed now

/-- A callback request: whether its address or its capability is throttled, its bearer token, and the body's
ciphertext where the body has a valid one. -/
structure CallbackRequest where
  limited : Bool
  token : Option String
  capabilityLimited : Bool
  sealed : Option String

def callback (req : CallbackRequest) (now : ℕ) : Filing Name File Reply :=
  if req.limited then .done (.error 429 "rate_limited")
  else match req.token.filter (·.length = 43) with
  | none => .done (.error 401 "invalid_callback")
  | some token =>
    if req.capabilityLimited then .done (.error 429 "rate_limited")
    else match req.sealed with
    | none => .done (.error 400 "invalid_sealed")
    | some sealed => (loadCallbacks now).bind fun
      | .error e => .done (internal e)
      | .ok table =>
        match table.find? (·.hash = sha.of token) with
        | none => .done (.error 401 "invalid_callback")
        | some record => (loadQueue record.library now).bind fun
          | .error e => .done (internal e)
          | .ok queue => receive sha table record queue (sha.of token) sealed now

/-! ## Draining and acknowledging -/

def drain (library : String) (now : ℕ) : Filing Name File (Except Failure (List (ℕ × String))) :=
  (loadQueue library now).bind fun
    | .error e => .done (.error e)
    | .ok queue => .done (.ok (queue.messages.map fun e => (e.seq, e.sealed)))

/-- Does a record lack a binding the table should have before the entry goes? -/
def Callback.lacks (c : Callback) : Bool := c.accepted = none || c.bindingVersion ≠ 1

/-- The bindings of acknowledged entries put into the table, and whether one was missing there; nothing where the
two disagree. -/
def transfer : List Entry → List Callback → Bool → Option (List Callback × Bool)
  | [], table, changed => some (table, changed)
  | e :: rest, table, changed =>
    match table.find? (·.hash = e.callback) with
    | none => transfer rest table changed
    | some record =>
      if record.accepted.any fun a => a.sealed ≠ sha.of e.sealed || a.seq ≠ e.seq then none
      else
        -- a binding that is there already is this one
        transfer rest
          (changeFirst e.callback (fun c =>
            { c with accepted := some ⟨sha.of e.sealed, e.seq⟩, bindingVersion := 1 }) table)
          (changed || record.lacks)

/-- The queue without what is acknowledged. -/
def removeAcked (library : String) (queue : Queue) (upTo : ℕ) : Filing Name File Reply :=
  (saveQueue library ⟨queue.next, queue.messages.filter (upTo < ·.seq)⟩).bind fun
    | .error e => .done (internal e)
    | .ok () =>
      .call .sync fun
        | .error e => .done (internal e)
        | .ok () => .done (.acked (queue.messages.filter (upTo < ·.seq)).length)

/-- The bindings made durable in the table, where one was missing, and then the queue. -/
def ackBound (library : String) (queue : Queue) (upTo : ℕ) :
    Option (List Callback × Bool) → Filing Name File Reply
  | none => .done (internal .other)
  | some (_, false) => removeAcked library queue upTo
  | some (table, true) => (saveCallbacks table).bind fun
    | .error e => .done (internal e)
    | .ok () =>
      .call .sync fun
        | .error e => .done (internal e)
        | .ok () => removeAcked library queue upTo

/-- `upTo` is what the body says, where it says one; `now` and `later` the two readings of the clock. -/
def ack (library : String) (upTo : Option ℕ) (now later : ℕ) : Filing Name File Reply :=
  match upTo with
  | none => .done (.error 400 "invalid_seq")
  | some upTo => (loadQueue library now).bind fun
    | .error e => .done (internal e)
    | .ok queue =>
      if queue.messages.filter (·.seq ≤ upTo) = [] then removeAcked library queue upTo
      else (loadCallbacks later).bind fun
        | .error e => .done (internal e)
        | .ok table =>
          ackBound library queue upTo (transfer sha (queue.messages.filter (·.seq ≤ upTo)) table false)

/-- The capabilities go before the queue. -/
def deleteLibraryLocked (library : String) (now : ℕ) : Filing Name File (Except Failure Unit) :=
  (loadCallbacks now).bind fun
    | .error e => .done (.error e)
    | .ok table => (saveCallbacks (table.filter (·.library ≠ library))).bind fun
      | .error e => .done (.error e)
      | .ok () =>
        .call .sync fun
          | .error e => .done (.error e)
          | .ok () =>
            .call (.delete (.queue library)) fun
              | .error e => .done (.error e)
              | .ok () => .call .sync .done

/-! ## The machine -/

/-- The table as it is stored. -/
def tableOf (files : Files) : List Callback :=
  match Assoc.get files .callbacks with
  | some (.callbacks l) => l
  | _ => []

/-- A library's queue as it is stored. -/
def queueOf (files : Files) (library : String) : Queue :=
  match Assoc.get files (.queue library) with
  | some (.queue q) => q
  | _ => ⟨1, []⟩

/-- An entry that was queued, and how often its library's queue had been deleted before. -/
structure Created where
  library : String
  era : ℕ
  entry : Entry
  deriving DecidableEq

/-- A callback that was answered 200. -/
structure Answered where
  callback : String
  sealed : String
  seq : ℕ
  deriving DecidableEq

structure State where
  files : Files
  clock : ℕ
  /-- The tokens drawn. -/
  drawn : List String
  /-- The libraries whose queue was deleted, as often as it was. -/
  deleted : List String
  /-- Every entry that was ever queued, in order. -/
  created : List Created
  answered : List Answered

def init : State := ⟨[], 0, [], [], [], []⟩

/-- How the operations of a request end, in turn. -/
abbrev Fates : Type := List Fate

inductive Event where
  | authorize (library request : String) (dropbox : Except Failure (Option Dropbox)) (token id : String)
      (now later : ℕ) (fates : Fates)
  | callback (req : CallbackRequest) (now : ℕ) (fates : Fates)
  | drain (library : String) (now : ℕ) (fates : Fates)
  | ack (library : String) (upTo : Option ℕ) (now later : ℕ) (fates : Fates)
  | deleteLibrary (library : String) (now : ℕ) (fates : Fates)

/-- The library of the capability a callback names. -/
def CallbackRequest.library (req : CallbackRequest) (files : Files) : String :=
  (((tableOf files).find? (·.hash = sha.of (req.token.getD ""))).map Callback.library).getD ""

/-- The entries of a queue that were not there before: numbered from its next number on. -/
def newEntries (deleted : List String) (before after : Files) (library : String) : List Created :=
  ((queueOf after library).messages.filter (max (queueOf before library).next 1 ≤ ·.seq)).map
    (⟨library, deleted.count library, ·⟩)

def answer (req : CallbackRequest) (reply : Option Reply) : List Answered :=
  match reply.bind Reply.seq with
  | some seq => [⟨sha.of (req.token.getD ""), req.sealed.getD "", seq⟩]
  | none => []

def step (s : State) : Event → State
  | .authorize library request dropbox token id now later fates =>
    { s with
      files := (Storage.run (scripted fates) (authorize sha library request dropbox token id now later) s.files).1
      clock := later
      drawn := token :: s.drawn }
  | .callback req now fates =>
    let ran := Storage.run (scripted fates) (callback sha req now) s.files
    { s with
      files := ran.1
      clock := now
      created := s.created ++ newEntries s.deleted s.files ran.1 (req.library sha s.files)
      answered := s.answered ++ answer sha req ran.2 }
  | .drain library now fates =>
    { s with
      files := (Storage.run (scripted fates) (drain library now) s.files).1
      clock := now }
  | .ack library upTo now later fates =>
    { s with
      files := (Storage.run (scripted fates) (ack sha library upTo now later) s.files).1
      clock := later }
  | .deleteLibrary library now fates =>
    let files := (Storage.run (scripted fates) (deleteLibraryLocked library now) s.files).1
    { s with
      files := files
      clock := now
      deleted := if Assoc.get files (.queue library) = none then library :: s.deleted else s.deleted }

end DenEdge.Receipts
