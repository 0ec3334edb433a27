import DenEdge.Base.Run
import DenEdge.Base.Storage

/-!
# The inbox

A queue of sealed messages per link, and beside it a wake marker under a public id, each one file. An append
writes the marker and then the queue; a drain deletes the queue and then the marker. Both run under the store's
write lock, one queue at a time, so each is one step here, its file operations failing as the event says. Two
readers expire files without the lock (`pending` its queue, `wake_trigger` its marker): they look in one step and
delete in a later one.

What came and went of each queue is kept beside the files, in `Ledger`.
-/

namespace DenEdge.Inbox

open Storage

/-- A queue an unopened TV never drains goes after a week. -/
def TTL_MS : ℕ := 7 * 24 * 60 * 60 * 1000

/-- The newest fifty are kept; older ones fall off the front. -/
def MAX_MESSAGES : ℕ := 50

def MAX_SEALED_CHARS : ℕ := 4096

def isHexDigit (c : Char) : Bool := c.isDigit || ('a' ≤ c && c ≤ 'f') || ('A' ≤ c && c ≤ 'F')

def validInboxKey (key : String) : Bool := 16 ≤ key.length && key.toList.all isHexDigit

/-- Opaque base64url. -/
def isSealed (s : String) : Bool :=
  s ≠ "" && s.length ≤ MAX_SEALED_CHARS && s.toList.all fun c => c.isAlphanum || c = '-' || c = '_'

/-- A file of the namespace: a queue under its key, a marker under `wake:` and its id. A key is hexadecimal, so
the two never have one name. -/
inductive Name where
  | queue (key : String)
  | wake (id : String)
  deriving DecidableEq

inductive File where
  | queue (expiresAt : ℕ) (messages : List String)
  | marker (expiresAt firstTriggeredAt lastTriggeredAt : ℕ)
  deriving DecidableEq

def File.expiresAt : File → ℕ
  | .queue at' _ => at'
  | .marker at' _ _ => at'

def File.messages : File → List String
  | .queue _ messages => messages
  | .marker _ _ _ => []

def File.firstTriggeredAt : File → Option ℕ
  | .queue _ _ => none
  | .marker _ first _ => some first

abbrev Files : Type := List (Name × File)

inductive Reply where
  | ok
  | messages (messages : List String)
  | error (status : ℕ) (code : String)
  deriving DecidableEq

/-- A storage failure as it is answered. -/
def internal : Failure → Reply
  | .full => .error 507 "storage_full"
  | .other => .error 500 "internal_error"

/-! ## The sections under the write lock -/

/-- The queue under a key, or nothing where there is none or it has expired, and is then deleted. -/
def load (key : String) (now : ℕ) : Filing Name File (Except Failure (Option (List String))) :=
  .call (.get (.queue key)) fun
    | .error e => .done (.error e)
    | .ok none => .done (.ok none)
    | .ok (some file) =>
      if file.expiresAt ≤ now then
        .call (.delete (.queue key)) fun
          | .error e => .done (.error e)
          | .ok () => .done (.ok none)
      else .done (.ok (some file.messages))

/-- A message at the end of a queue, which keeps its newest. -/
def enqueue (queue : List String) (message : String) : List String :=
  (queue ++ [message]).drop ((queue ++ [message]).length - MAX_MESSAGES)

/-- The public id a queue's marker is under: a hash of its key. -/
structure WakeId where
  id : String → String
  injective : Function.Injective id

variable (wake : WakeId)

/-- The marker, then the queue; the marker is deleted where the queue is not written. -/
def writeBoth (key : String) (queue : List String) (now first : ℕ) : Filing Name File Reply :=
  .call (.put (.wake (wake.id key)) (.marker (now + TTL_MS) first now)) fun
    | .error e => .done (internal e)
    | .ok () =>
      .call (.put (.queue key) (.queue (now + TTL_MS) queue)) fun
        | .error e => .call (.delete (.wake (wake.id key))) fun _ => .done (internal e)
        | .ok () => .done .ok

def write (key : String) (existing : Option (List String)) (message : String) (now : ℕ) :
    Filing Name File Reply :=
  .call (.get (.wake (wake.id key))) fun marker =>
    -- a marker that cannot be read is as one that is not there
    let first := ((marker.toOption.join).bind File.firstTriggeredAt).getD now
    writeBoth wake key (enqueue (existing.getD []) message) now first

/-- A valid append; `startLimited` is whether its address may start no more queues. -/
def accept (key message : String) (now : ℕ) (startLimited : Bool) : Filing Name File Reply :=
  (load key now).bind fun
    | .error e => .done (internal e)
    | .ok existing =>
      if existing = none ∧ startLimited then .done (.error 429 "rate_limited")
      else write wake key existing message now

structure AppendBody where
  inboxKey : Option String
  sealed : Option String

structure AppendRequest where
  /-- The `x-den-link` header. -/
  header : Option String
  /-- The body, or how it was refused. -/
  body : Except Reply AppendBody
  /-- Whether its address has spent its appends, and its new queues. -/
  limited : Bool
  startLimited : Bool

def AppendRequest.key (req : AppendRequest) (body : AppendBody) : String :=
  (req.header.or body.inboxKey).getD ""

/-- The queue and the message of a request that gets as far as the store, or the refusal. -/
def AppendRequest.parse (req : AppendRequest) : Except Reply (String × String) :=
  if req.limited then .error (.error 429 "rate_limited")
  else match req.body with
    | .error refusal => .error refusal
    | .ok body =>
      if ¬ validInboxKey (req.key body) then .error (.error 400 "invalid_inbox_key")
      else match body.sealed.filter (isSealed ·) with
        | none => .error (.error 400 "invalid_message")
        | some message => .ok (req.key body, message)

def append (req : AppendRequest) (now : ℕ) : Filing Name File Reply :=
  match req.parse with
  | .error refusal => .done refusal
  | .ok (key, message) => accept wake key message now req.startLimited

/-- A drain of one queue: the TV acknowledges by draining. -/
def drain (key : String) (now : ℕ) : Filing Name File Reply :=
  if ¬ validInboxKey key then .done (.error 400 "invalid_inbox_key")
  else (load key now).bind fun
    | .error e => .done (internal e)
    | .ok none => .done (.messages [])
    | .ok (some messages) =>
      .call (.delete (.queue key)) fun
        | .error e => .done (internal e)
        | .ok () => .call (.delete (.wake (wake.id key))) fun _ => .done (.messages messages)

/-- One queue of a drain of many: what cannot be read is answered as empty, what cannot be deleted is handed over.
-/
def take (key : String) (now : ℕ) : Filing Name File (List String) :=
  (load key now).bind fun
    | .error _ => .done []
    | .ok none => .done []
    | .ok (some messages) =>
      .call (.delete (.queue key)) fun _ =>
        .call (.delete (.wake (wake.id key))) fun _ => .done messages

/-- The sweep's look at one file. -/
def sweepInbox (name : Name) (now : ℕ) : Filing Name File (Except Failure Bool) :=
  .call (.get name) fun
    | .error e => .done (.error e)
    | .ok none => .done (.ok false)
    | .ok (some file) =>
      if file.expiresAt ≤ now then
        .call (.delete name) fun
          | .error e => .done (.error e)
          | .ok () => .done (.ok true)
      else .done (.ok false)

/-! ## What came and went of a queue -/

/-- How a message left its queue. -/
inductive Leaving where
  /-- Returned by the `n`th drain of the queue. -/
  | drained (n : ℕ)
  /-- Off the front, when so many had been accepted. -/
  | crowdedOut (accepted : ℕ)
  /-- With its queue, which had expired by the time it was looked at. -/
  | expired (expiresAt now : ℕ)
  deriving DecidableEq

structure Ledger where
  /-- The messages whose append was answered `ok`, in that order. -/
  accepted : List String
  /-- The messages that left the queue, in that order. -/
  gone : List (String × Leaving)
  /-- What each drain of the queue returned. -/
  drains : List (List String)

/-- An expired queue that is no longer there is gone with its messages. -/
def Ledger.expire (l : Ledger) (before after : Option File) (now : ℕ) : Ledger :=
  match before with
  | none => l
  | some file =>
    if file.expiresAt ≤ now ∧ after ≠ before then
      { l with gone := l.gone ++ file.messages.map fun m => (m, .expired file.expiresAt now) }
    else l

/-- A file that has not expired. -/
def fresh (file : Option File) (now : ℕ) : Option File := file.filter fun f => now < f.expiresAt

/-- The messages of a queue that has not expired. -/
def live (file : Option File) (now : ℕ) : List String := (fresh file now).elim [] File.messages

def Ledger.accept (l : Ledger) (waiting : List String) (message : String) : Ledger :=
  { l with
    accepted := l.accepted ++ [message]
    gone := l.gone ++ ((waiting ++ [message]).take ((waiting ++ [message]).length - MAX_MESSAGES)).map fun m =>
      (m, .crowdedOut (l.accepted.length + 1)) }

/-- A drain that returned messages, and whether they left the queue. -/
def Ledger.drain (l : Ledger) (messages : List String) (left : Bool) : Ledger :=
  { l with
    drains := l.drains ++ [messages]
    gone := l.gone ++ if left then messages.map fun m => (m, .drained l.drains.length) else [] }

/-! ## The machine -/

structure State where
  files : Files
  /-- The files that a reader without the lock found expired and is about to delete, and the time it looked at. -/
  expiring : List (Name × ℕ)
  /-- The latest time anything was done at. -/
  clock : ℕ
  ledger : String → Ledger

def init : State := ⟨[], [], 0, fun _ => ⟨[], [], []⟩⟩

/-- The operations of a request that fail. -/
abbrev Fails : Type := List (Touch Name × Failure)

inductive Event where
  | append (req : AppendRequest) (now : ℕ) (fails : Fails)
  | drain (key : String) (now : ℕ) (fails : Fails)
  | take (key : String) (now : ℕ) (fails : Fails)
  | sweep (name : Name) (now : ℕ) (fails : Fails)
  /-- A reader without the lock finds a file expired. -/
  | look (name : Name) (now : ℕ)
  /-- The `i`th of those readers deletes its file, which fails or not. -/
  | expire (i : ℕ) (succeeds : Bool)

def State.file (s : State) (key : String) : Option File := Assoc.get s.files (.queue key)

def State.marker (s : State) (wake : WakeId) (key : String) : Option File :=
  Assoc.get s.files (.wake (wake.id key))

/-- The state after a request left the files so, at a time; `note` is what it did to the ledger of one queue,
after what expired of the queue. -/
def State.leave (s : State) (files : Files) (now : ℕ) (key : String) (note : Ledger → Ledger) : State :=
  { s with
    files := files
    clock := max s.clock now
    ledger := Function.update s.ledger key
      (note ((s.ledger key).expire (s.file key) (Assoc.get files (.queue key)) now)) }

/-- What a program ends with where no operation dies. -/
def result {α : Type} (fails : Fails) (p : Filing Name File α) (files : Files) (died : α) : Files × α :=
  let (files', a) := Storage.run (failing fails) p files
  (files', a.getD died)

def appendResult (s : State) (req : AppendRequest) (now : ℕ) (fails : Fails) : Files × Reply :=
  result fails (append wake req now) s.files .ok

def drainResult (s : State) (key : String) (now : ℕ) (fails : Fails) : Files × Reply :=
  result fails (drain wake key now) s.files .ok

def takeResult (s : State) (key : String) (now : ℕ) (fails : Fails) : Files × List String :=
  result fails (take wake key now) s.files []

def sweepResult (s : State) (name : Name) (now : ℕ) (fails : Fails) : Files :=
  (result fails (sweepInbox name now) s.files (.ok false)).1

def step (s : State) : Event → State
  | .append req now fails =>
    match req.parse with
    | .error _ => s
    | .ok (key, message) =>
      let (files, reply) := appendResult wake s req now fails
      s.leave files now key fun l => if reply = .ok then l.accept (live (s.file key) now) message else l
  | .drain key now fails =>
    let (files, reply) := drainResult wake s key now fails
    s.leave files now key fun l =>
      match reply with
      | .messages messages => l.drain messages (Assoc.get files (.queue key) = none)
      | _ => l
  | .take key now fails =>
    let (files, messages) := takeResult wake s key now fails
    s.leave files now key fun l => l.drain messages (Assoc.get files (.queue key) = none)
  | .sweep name now fails =>
    let files := sweepResult s name now fails
    match name with
    | .queue key => s.leave files now key id
    | .wake _ => { s with files := files, clock := max s.clock now }
  | .look name now =>
    match Assoc.get s.files name with
    | some file =>
      if file.expiresAt ≤ now then { s with expiring := s.expiring ++ [(name, now)], clock := max s.clock now }
      else s
    | none => s
  | .expire i succeeds =>
    match s.expiring[i]? with
    | none => s
    | some (name, now) =>
      let files := if succeeds then Assoc.erase s.files name else s.files
      let s := { s with expiring := s.expiring.eraseIdx i }
      match name with
      | .queue key => s.leave files now key id
      | .wake _ => { s with files := files }

end DenEdge.Inbox
