import DenEdge.Base.Assoc
import DenEdge.Base.Run

/-!
# The assistant's queues

An assistant's sealed requests wait for a device of the library in the library's own queue, or for a TV in the
TVs' shared queue or in a lane of the TV's own. A queue is one file, rewritten whole under one lock: an append
adds to it, an ack moves what was handled to what was taken, and what is too old is gone with the next read. Which
TVs there are is known from when they last drained, in memory alone, and a deletion of the library deletes the
lanes known at that moment.
-/

namespace DenEdge.Assistant

def MAX_QUEUED : ℕ := 200

def TTL_MS : ℕ := 7 * 86400000

def TV_MAX_QUEUED : ℕ := 20

def TV_TTL_MS : ℕ := 10 * 60000

/-- TV lanes remembered of a library. -/
def MAX_TVS : ℕ := 16

/-! ## Lanes -/

/-- A library's own queue, or its TVs': the shared one, or a lane of one TV's. -/
inductive Lane where
  | library
  | tv (lane : Option String)
  deriving DecidableEq

/-- 32 lower-case hexadecimal digits. -/
def validTv (tv : String) : Bool := tv.length = 32 && tv.toList.all fun c => c.isDigit || ('a' ≤ c && c ≤ 'f')

namespace Lane

inductive Refused where
  | invalidTv
  | invalidQueue

def parse (queue tv : Option String) : Except Refused Lane :=
  match queue, tv with
  | none, none => .ok .library
  | some "library", none => .ok .library
  | some "tv", none => .ok (.tv none)
  | some "tv", some tv => if validTv tv then .ok (.tv (some tv)) else .error .invalidTv
  | _, _ => .error .invalidQueue

def max : Lane → ℕ
  | .library => MAX_QUEUED
  | .tv _ => TV_MAX_QUEUED

def ttl : Lane → ℕ
  | .library => TTL_MS
  | .tv _ => TV_TTL_MS

/-- Until when a request of the lane is kept. -/
def keptUntil (lane : Lane) (receivedAt : ℕ) : ℕ := min (receivedAt + lane.ttl) (2 ^ 64 - 1)

end Lane

/-! ## Queues -/

/-- A request that waits. -/
structure Entry where
  seq : ℕ
  sealedText : String
  receivedAt : ℕ
  deriving DecidableEq

/-- A request that a device acknowledged. -/
structure Taken where
  seq : ℕ
  receivedAt : ℕ
  deriving DecidableEq

structure Queue where
  /-- The next sequence. -/
  next : ℕ
  messages : List Entry
  taken : List Taken
  deriving DecidableEq

/-- A queue as it is read: what is too old is left out. -/
def Queue.read (q : Queue) (lane : Lane) (now : ℕ) : Queue where
  next := Nat.max q.next 1
  messages := q.messages.filter fun m => now < lane.keptUntil m.receivedAt
  taken := q.taken.filter fun t => now < lane.keptUntil t.receivedAt

/-- A request is queued, where the lane is not full. -/
def Queue.append (q : Queue) (lane : Lane) (sealedText : String) (now : ℕ) : Option Queue :=
  let q := q.read lane now
  if lane.max ≤ q.messages.length then none
  else some { q with next := q.next + 1, messages := q.messages ++ [⟨q.next, sealedText, now⟩] }

/-- What was handled is taken; nothing is written where nothing was. -/
def Queue.ack (q : Queue) (lane : Lane) (upTo now : ℕ) : Option Queue :=
  let q := q.read lane now
  let handled := q.messages.filter fun m => m.seq ≤ upTo
  if handled = [] then none
  else some { q with
    messages := q.messages.filter fun m => !decide (m.seq ≤ upTo)
    taken := q.taken ++ handled.map fun m => ⟨m.seq, m.receivedAt⟩ }

/-! ## The TVs that were seen -/

structure SeenTv where
  tv : String
  name : Option String
  at_ : ℕ

structure TvsSeen where
  shared : Option ℕ
  lanes : List SeenTv

/-- A TV drained: it is listed, and the one not seen for longest is forgotten where there are too many. -/
def TvsSeen.saw (seen : TvsSeen) (tv : Option String) (name : Option String) (now : ℕ) : TvsSeen :=
  match tv with
  | none => { seen with shared := some now }
  | some tv =>
    let lanes :=
      if seen.lanes.any (·.tv = tv) then
        seen.lanes.map fun s => if s.tv = tv then { s with at_ := now, name := name.or s.name } else s
      else seen.lanes ++ [⟨tv, name, now⟩]
    if MAX_TVS < lanes.length then
      { seen with lanes := (lanes.insertionSort fun a b => b.at_ ≤ a.at_).take MAX_TVS }
    else { seen with lanes := lanes }

/-! ## The server -/

/-- A queue's file. -/
structure Key where
  library : String
  lane : Lane
  deriving DecidableEq

/-- An append whose session, body and lane were checked, and which waits for the lock. -/
structure Ask where
  key : Key
  sealedText : String

/-- A request that was answered with its sequence. -/
structure Issued where
  seq : ℕ
  receivedAt : ℕ

/-- The queues, and what is known in memory alone. -/
structure State where
  clock : ℕ
  files : List (Key × Queue)
  seen : List (String × TvsSeen)
  asking : List Ask
  /-- A deletion that has the lock, and the lanes it is still to delete. -/
  deleting : Option (String × List Lane)
  /-- The requests of each queue, since its file was last deleted. -/
  issued : List (Key × List Issued)

def init : State := ⟨0, [], [], [], none, []⟩

namespace State

variable (s : State)

/-- The queue that is stored, a new one where there is none. -/
def stored (key : Key) : Queue := (Assoc.get s.files key).getD ⟨1, [], []⟩

/-- The queue as it is read now. -/
def queue (key : Key) : Queue := (s.stored key).read key.lane s.clock

def requests (key : Key) : List Issued := (Assoc.get s.issued key).getD []

def seenOf (library : String) : TvsSeen := (Assoc.get s.seen library).getD ⟨none, []⟩

/-- Does the library have the TV, as far as is known? A controller that lists it counts too. -/
def knows (library : String) (lane : Lane) (registered : Bool) : Bool :=
  match lane with
  | .tv (some tv) => (s.seenOf library).lanes.any (·.tv = tv) || registered
  | _ => true

end State

inductive Event where
  | tick (ms : ℕ)
  | ask (library : String) (queue tv : Option String) (sealedText : String) (registered : Bool)
  | append (i : ℕ)
  | drain (library : String) (queue tv name : Option String)
  | ack (library : String) (queue tv : Option String) (upTo : ℕ)
  | deleteLibrary (library : String)
  | deleteNext
  | restart

variable (s : State)

/-- The append that has the lock. -/
def append (ask : Ask) : State :=
  match (s.stored ask.key).append ask.key.lane ask.sealedText s.clock with
  | none => s
  | some q =>
    { s with
      files := Assoc.set s.files ask.key q
      issued := Assoc.set s.issued ask.key (s.requests ask.key ++ [⟨(s.queue ask.key).next, s.clock⟩]) }

def ack (key : Key) (upTo : ℕ) : State :=
  match (s.stored key).ack key.lane upTo s.clock with
  | none => s
  | some q => { s with files := Assoc.set s.files key q }

/-- The lanes a deletion knows of: the library's own, the shared one, and those of the TVs that were seen. -/
def lanesOf (seen : TvsSeen) : List Lane := [.library, .tv none] ++ seen.lanes.map fun s => .tv (some s.tv)

def step : Event → State
  | .tick ms => { s with clock := s.clock + ms }
  | .ask library queue tv sealedText registered =>
    match Lane.parse queue tv with
    | .ok lane =>
      if s.knows library lane registered then { s with asking := s.asking ++ [⟨⟨library, lane⟩, sealedText⟩] }
      else s
    | .error _ => s
  | .append i =>
    match s.deleting, s.asking[i]? with
    | none, some ask => append { s with asking := s.asking.eraseIdx i } ask
    | _, _ => s
  | .drain library queue tv name =>
    match Lane.parse queue tv with
    | .ok (.tv tv) =>
      -- only a lane of its own is given a name
      let name := if tv.isSome then name else none
      { s with seen := Assoc.set s.seen library ((s.seenOf library).saw tv name s.clock) }
    | _ => s
  | .ack library queue tv upTo =>
    match s.deleting, Lane.parse queue tv with
    | none, .ok lane => ack s ⟨library, lane⟩ upTo
    | _, _ => s
  | .deleteLibrary library =>
    match s.deleting with
    | none =>
      { s with seen := Assoc.erase s.seen library, deleting := some (library, lanesOf (s.seenOf library)) }
    | some _ => s
  | .deleteNext =>
    match s.deleting with
    | some (library, lane :: lanes) =>
      { s with
        files := Assoc.erase s.files ⟨library, lane⟩
        issued := Assoc.erase s.issued ⟨library, lane⟩
        deleting := some (library, lanes) }
    | some (_, []) => { s with deleting := none }
    | none => s
  | .restart => { s with seen := [], asking := [], deleting := none }

/-! ## Where a request is -/

def State.Queued (key : Key) (r : Issued) : Prop := ∃ m ∈ (s.queue key).messages, m.seq = r.seq

def State.IsTaken (key : Key) (r : Issued) : Prop := ∃ t ∈ (s.queue key).taken, t.seq = r.seq

def State.Expired (key : Key) (r : Issued) : Prop := key.lane.keptUntil r.receivedAt ≤ s.clock

/-- Every lane that has a file is known to its library's deletion. -/
def Remembered : Event → Prop
  | .deleteLibrary library =>
    s.deleting = none → ∀ f ∈ s.files, f.1.library = library → f.1.lane ∈ lanesOf (s.seenOf library)
  | _ => True

instance (s : State) (e : Event) : Decidable (Remembered s e) := by
  cases e <;> unfold Remembered <;> infer_instance

end DenEdge.Assistant
