import DenEdge.Base.Assoc
import DenEdge.Base.Digest
import DenEdge.Base.Run

/-!
# Wake controllers

A wake controller is enrolled for a library and then polls: a poll proves the controller's credential against its
stored record, registers the targets it can wake, acknowledges the events it has handled, and waits for the next.
A trigger (a message in an inbox, an assistant's request for a TV) raises an event for each registered target it
concerns, in memory alone; what survives a restart is the record, with the time up to which each target's events
were acknowledged.

A poll reads its record when it proves its credential and writes it back, under the lock, at the end of its
registration; what is nondeterministic in between (how long its body takes, what the stored triggers are) is in
the acts.
-/

namespace DenEdge.Wake

def MAX_TARGETS : ℕ := 16

def MAX_ACKS : ℕ := 32

def MAX_CONTROLLERS : ℕ := 4

def LEASE_MS : ℕ := 60000

/-! ## Records -/

structure Target where
  id : String
  name : String
  inbox : String
  tv : String
  capabilities : List String
  deriving DecidableEq

inductive Source where
  | inbox
  | assistant
  deriving DecidableEq

/-- What is pending of a target: every trigger since the last acknowledgement, under one id that changes with
each. -/
structure Event where
  id : ℕ
  sources : List Source
  firstAcceptedAt : ℕ
  lastAcceptedAt : ℕ
  /-- The triggers it stands for. -/
  accepted : List (Source × ℕ)
  deriving DecidableEq

/-- A registered controller, in memory. -/
structure Controller where
  targets : List Target
  leaseUntil : ℕ
  registeredAt : ℕ
  pending : List (String × Event)
  pollGeneration : ℕ

/-- A controller's record. -/
structure StoredController where
  controller : ℕ
  library : String
  verifier : String
  targets : List Target
  watermarks : List (String × ℕ)
  deriving DecidableEq

def StoredController.watermark (stored : StoredController) (target : String) : ℕ :=
  (Assoc.get stored.watermarks target).getD 0

/-! ## Checks of a poll -/

def lowerHex (value : String) (len : ℕ) : Bool :=
  value.length = len && value.toList.all fun c => c.isDigit || ('a' ≤ c && c ≤ 'f')

def validCapability (capability : String) : Bool :=
  capability ≠ "" && capability.length ≤ 32 && capability.toList.all fun c => c.isLower || c = '-'

def validTarget (t : Target) : Bool :=
  lowerHex t.id 32 && lowerHex t.inbox 64 && lowerHex t.tv 32 && t.capabilities.length ≤ 8 &&
    t.capabilities.all validCapability && decide t.capabilities.Nodup

/-- No target twice, neither by its id nor by what it listens to. -/
def Distinct (targets : List Target) : Prop :=
  (targets.map Target.id).Nodup ∧ (targets.map fun t => (t.inbox, t.tv)).Nodup

instance (targets : List Target) : Decidable (Distinct targets) :=
  inferInstanceAs (Decidable ((targets.map Target.id).Nodup ∧ (targets.map fun t => (t.inbox, t.tv)).Nodup))

def validPoll (targets : List Target) (acks : List ℕ) : Bool :=
  targets.length ≤ MAX_TARGETS && acks.length ≤ MAX_ACKS && targets.all validTarget &&
    decide (Distinct targets) && decide acks.Nodup

/-- Do two targets stand in each other's way? -/
def Target.meets (t other : Target) : Bool := t.id = other.id || (t.inbox = other.inbox && t.tv = other.tv)

/-! ## Events -/

/-- A trigger is accepted for a target; the draw is the event's id from now on. -/
def addEvent (c : Controller) (target : String) (source : Source) (at_ draw : ℕ) : Controller :=
  match Assoc.get c.pending target with
  | some current =>
    { c with
      pending := Assoc.set c.pending target
        { id := draw
          sources := if source ∈ current.sources then current.sources else current.sources ++ [source]
          firstAcceptedAt := min current.firstAcceptedAt at_
          lastAcceptedAt := max current.lastAcceptedAt at_
          accepted := current.accepted ++ [(source, at_)] } }
  | none => { c with pending := Assoc.set c.pending target ⟨draw, [source], at_, at_, [(source, at_)]⟩ }

/-- A trigger is accepted for several targets, each with a draw of its own. -/
def addEvents (source : Source) (at_ : ℕ) : List String → Controller → ℕ → Controller × ℕ
  | [], c, draw => (c, draw)
  | target :: targets, c, draw => addEvents source at_ targets (addEvent c target source at_ draw) (draw + 1)

/-- A trigger reaches every controller whose lease lasts, for the targets it concerns. -/
def notify (source : Source) (at_ : ℕ) (concerned : String → Target → Bool) :
    List ((String × ℕ) × Controller) → ℕ → List ((String × ℕ) × Controller) × ℕ
  | [], draw => ([], draw)
  | (key, c) :: controllers, draw =>
    let targets := if at_ < c.leaseUntil then (c.targets.filter (concerned key.1)).map Target.id else []
    let (c, draw) := addEvents source at_ targets c draw
    let (controllers, draw) := notify source at_ concerned controllers draw
    ((key, c) :: controllers, draw)

/-! ## Registrations -/

/-- A poll's targets are registered: what is pending of other targets goes, the lease is renewed, and older polls
are superseded. Answers whether the registration is new. -/
def register (current : Option Controller) (targets : List Target) (now : ℕ) : Controller × Bool :=
  let changed := match current with
    | none => true
    | some c => c.targets ≠ targets || c.leaseUntil ≤ now
  let c := current.getD ⟨targets, now + LEASE_MS, now, [], 0⟩
  let c :=
    if changed then
      { c with
        targets := targets
        registeredAt := now
        pending := c.pending.filter fun p => targets.any (·.id = p.1) }
    else c
  ({ c with leaseUntil := now + LEASE_MS, pollGeneration := c.pollGeneration + 1 }, changed)

/-- A target's events were handled up to a time. -/
def raise (watermarks : List (String × ℕ)) (target : String) (at_ : ℕ) : List (String × ℕ) :=
  match Assoc.get watermarks target with
  | some before => Assoc.set watermarks target (max before at_)
  | none => Assoc.set watermarks target at_

/-- What is pending, up to when each target's events were handled, and which triggers of which targets that was.
-/
structure Handled where
  pending : List (String × Event)
  watermarks : List (String × ℕ)
  triggers : List (String × Source × ℕ)

/-- An acknowledged event is no longer pending. -/
def Handled.ack (h : Handled) (ack : ℕ) : Handled :=
  let acked := h.pending.filter fun p => p.2.id = ack
  { pending := h.pending.filter fun p => p.2.id ≠ ack
    watermarks := acked.foldl (fun w p => raise w p.1 p.2.lastAcceptedAt) h.watermarks
    triggers := h.triggers ++ acked.flatMap fun p => p.2.accepted.map fun a => (p.1, a) }

/-! ## The server -/

inductive Phase where
  /-- Its credential was proved; its body is on its way. -/
  | reading
  | inside
  /-- Registered and stored; it answers when there is an event, or when its hold is over. -/
  | waiting (generation : ℕ) (hold : Bool)
  | done
  deriving DecidableEq

structure Poll where
  /-- The record as it was read with the credential. -/
  stored : StoredController
  phase : Phase
  /-- A later poll of its controller has registered. -/
  superseded : Bool

/-- A poll that has the lock: it has registered, and looks for the triggers it may have missed. -/
structure Section where
  poll : ℕ
  stored : StoredController
  targets : List Target
  generation : ℕ
  todo : List (Source × Target)
  handled : List (String × Source × ℕ)
  deriving DecidableEq

/-- The events of a poll's answer. -/
structure Answer where
  controller : ℕ
  superseded : Bool
  events : List (String × Event)

/-- Files, memory, and what was done so far. -/
structure State where
  clock : ℕ
  records : List (ℕ × StoredController)
  indexes : List (String × List ℕ)
  memory : List ((String × ℕ) × Controller)
  polls : List Poll
  holder : Option Section
  /-- The next controller's id, and the next event's. -/
  nextController : ℕ
  nextEvent : ℕ
  /-- The library each controller was enrolled for. -/
  owners : List (ℕ × String)
  /-- The controllers that were removed, by themselves or with their library. -/
  removed : List ℕ
  /-- The triggers that were acknowledged, in polls that stored it. -/
  acked : List (ℕ × String × Source × ℕ)
  answers : List Answer

def init : State := ⟨0, [], [], [], [], none, 0, 0, [], [], [], []⟩

namespace State

variable (s : State)

def index (library : String) : List ℕ := (Assoc.get s.indexes library).getD []

def libraryControllers (library : String) : List StoredController :=
  (s.index library).filterMap (Assoc.get s.records)

/-- The event that is pending of a controller's target. -/
def pending (library : String) (controller : ℕ) (target : String) : Option Event :=
  (Assoc.get s.memory (library, controller)).bind fun c => Assoc.get c.pending target

end State

inductive Act where
  | tick (ms : ℕ)
  | enroll (library secret : String)
  | deleteController (library : String) (controller : ℕ)
  | deleteLibrary (library : String)
  | authenticate (controller : ℕ) (secret : String)
  | enter (i : ℕ) (targets : List Target) (acks : List ℕ)
  | look (i : ℕ) (online : Bool) (trigger : Option (ℕ × ℕ))
  | store (i : ℕ) (hold : Bool)
  | answer (i : ℕ)
  | notifyInbox (wake : String) (at_ : ℕ) (online : List (String × String))
  | notifyAssistant (library lane : String) (at_ : ℕ)
  | restart

/-- A controller is enrolled, where its library has fewer than four. -/
def enroll (sha : Digest) (s : State) (library secret : String) : State :=
  let ids := s.index library
  if MAX_CONTROLLERS ≤ ids.length then s
  else
    { s with
      records := Assoc.set s.records s.nextController ⟨s.nextController, library, sha.of secret, [], []⟩
      indexes := Assoc.set s.indexes library (ids ++ [s.nextController])
      nextController := s.nextController + 1
      owners := Assoc.set s.owners s.nextController library }

variable (s : State)

def deleteController (library : String) (controller : ℕ) : State :=
  let ids := s.index library
  -- the ghost takes the library's own controllers alone: another library's is not this one's to remove
  let s := { s with
    removed := if Assoc.get s.owners controller = some library then controller :: s.removed else s.removed }
  if controller ∈ ids then
    { s with
      indexes := Assoc.set s.indexes library (ids.filter (· ≠ controller))
      records := Assoc.erase s.records controller
      memory := Assoc.erase s.memory (library, controller) }
  else s

def deleteLibrary (library : String) : State :=
  { s with
    records := ((s.libraryControllers library).map StoredController.controller).foldl Assoc.erase s.records
    indexes := Assoc.erase s.indexes library
    memory := s.memory.filter fun e => e.1.1 ≠ library
    removed := ((List.range s.nextController).filter fun c => Assoc.get s.owners c = some library) ++ s.removed }

/-- The record of a controller, to whoever has its secret. -/
def authenticate (sha : Digest) (s : State) (controller : ℕ) (secret : String) : Option StoredController :=
  (Assoc.get s.records controller).filter fun stored => stored.controller = controller ∧
    stored.verifier = sha.of secret

/-- Does another controller of the library have one of these targets? -/
def conflicts (stored : StoredController) (targets : List Target) : Bool :=
  (s.libraryControllers stored.library).any fun other =>
    other.controller ≠ stored.controller && other.targets.any fun o => targets.any fun t => t.meets o

/-- A poll with the lock: the check against the library's other controllers, then its registration and
acknowledgements. -/
def enter (i : ℕ) (p : Poll) (targets : List Target) (acks : List ℕ) : State :=
  if conflicts s p.stored targets then { s with polls := s.polls.set i { p with phase := .done } }
  else
    let key := (p.stored.library, p.stored.controller)
    let (c, first) := register (Assoc.get s.memory key) targets s.clock
    let handled := acks.foldl Handled.ack ⟨c.pending, p.stored.watermarks, []⟩
    let polls := s.polls.map fun q =>
      if q.stored.controller = p.stored.controller then { q with superseded := true } else q
    { s with
      memory := Assoc.set s.memory key { c with pending := handled.pending }
      polls := polls.set i { p with phase := .inside, superseded := false }
      holder := some
        { poll := i
          stored := { p.stored with watermarks := handled.watermarks }
          targets := targets
          generation := c.pollGeneration
          todo := if first then targets.flatMap fun t => [(.inbox, t), (.assistant, t)] else []
          handled := handled.triggers } }

/-- A stored trigger, its first and last time, is missed where its target's TV is away and nothing as late was
handled. -/
def look (h : Section) (source : Source) (target : Target) (todo : List (Source × Target)) (online : Bool)
    (trigger : Option (ℕ × ℕ)) : State :=
  let s := { s with holder := some { h with todo := todo } }
  let key := (h.stored.library, h.stored.controller)
  match trigger, Assoc.get s.memory key with
  | some (first, last), some c =>
    if !online && h.stored.watermark target.id < last then
      let c := addEvent c target.id source first s.nextEvent
      let c := if last ≠ first then addEvent c target.id source last (s.nextEvent + 1) else c
      { s with memory := Assoc.set s.memory key c, nextEvent := s.nextEvent + 2 }
    else s
  | _, _ => s

/-- The snapshot is written, and the lock is given back. -/
def store (h : Section) (p : Poll) (hold : Bool) : State :=
  { s with
    records := Assoc.set s.records h.stored.controller { h.stored with targets := h.targets }
    polls := s.polls.set h.poll { p with phase := .waiting h.generation hold }
    holder := none
    acked := s.acked ++ h.handled.map fun t => (h.stored.controller, t) }

/-- A poll looks for what is pending; with nothing to say it waits once. -/
def answer (i : ℕ) (p : Poll) (generation : ℕ) (hold : Bool) : State :=
  match Assoc.get s.memory (p.stored.library, p.stored.controller) with
  | none => { s with polls := s.polls.set i { p with phase := .done } }
  | some c =>
    let superseded := c.pollGeneration ≠ generation
    let events :=
      if superseded then [] else c.pending.insertionSort fun a b => a.2.firstAcceptedAt ≤ b.2.firstAcceptedAt
    if superseded ∨ events ≠ [] ∨ hold = false then
      { s with
        polls := s.polls.set i { p with phase := .done }
        answers := s.answers ++ [⟨p.stored.controller, p.superseded, events⟩] }
    else { s with polls := s.polls.set i { p with phase := .waiting generation false } }

def notified (source : Source) (at_ : ℕ) (concerned : String → Target → Bool) : State :=
  let (memory, draw) := notify source at_ concerned s.memory s.nextEvent
  { s with memory := memory, nextEvent := draw }

def step (sha : Digest) (s : State) : Act → State
  | .tick ms => { s with clock := s.clock + ms }
  | .enroll library secret =>
    match s.holder with
    | none => enroll sha s library secret
    | some _ => s
  | .deleteController library controller =>
    match s.holder with
    | none => deleteController s library controller
    | some _ => s
  | .deleteLibrary library =>
    match s.holder with
    | none => deleteLibrary s library
    | some _ => s
  | .authenticate controller secret =>
    match authenticate sha s controller secret with
    | some stored => { s with polls := s.polls ++ [⟨stored, .reading, false⟩] }
    | none => s
  | .enter i targets acks =>
    match s.holder, s.polls[i]? with
    | none, some p =>
      if p.phase = .reading then
        if validPoll targets acks then enter s i p targets acks
        else { s with polls := s.polls.set i { p with phase := .done } }
      else s
    | _, _ => s
  | .look i online trigger =>
    match s.holder with
    | some h =>
      match h.todo with
      | (source, target) :: todo => if h.poll = i then look s h source target todo online trigger else s
      | [] => s
    | none => s
  | .store i hold =>
    match s.holder, s.polls[i]? with
    | some h, some p => if h.poll = i ∧ h.todo = [] then store s h p hold else s
    | _, _ => s
  | .answer i =>
    match s.polls[i]? with
    | some p =>
      match p.phase with
      | .waiting generation hold => answer s i p generation hold
      | _ => s
    | none => s
  | .notifyInbox wake at_ online =>
    notified s .inbox at_ fun library t => t.inbox = wake && !(online.contains (library, t.tv))
  | .notifyAssistant library lane at_ =>
    notified s .assistant at_ fun registered t => registered = library && t.tv = lane
  | .restart => { s with memory := [], polls := [], holder := none }

/-! ## Conditions -/

/-- A poll gets the lock while its controller's record is there. -/
def Standing : Act → Prop
  | .enter i _ _ => ∀ p, s.polls[i]? = some p → (Assoc.get s.records p.stored.controller).isSome
  | _ => True

/-- A poll gets the lock while the record says of what was handled what it read. -/
def Current : Act → Prop
  | .enter i _ _ => ∀ p, s.polls[i]? = some p →
      (Assoc.get s.records p.stored.controller).map StoredController.watermarks = some p.stored.watermarks
  | _ => True

instance (s : State) (a : Act) : Decidable (Standing s a) := by
  cases a <;> unfold Standing <;> infer_instance

instance (s : State) (a : Act) : Decidable (Current s a) := by
  cases a <;> unfold Current <;> infer_instance

end DenEdge.Wake
