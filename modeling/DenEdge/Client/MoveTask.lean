import DenEdge.Base.Run
import DenEdge.Client.Moving

/-!
# Moving a library to a new key, request by request

The tasks `key-reset.move`, `key-reset.settle` and `key-reset.adopt` of one browser, for one library and one
destination. A task is between two requests at any time: `Task` is where it waits, `answered` what it does with an
answer, or with none. Requests are in flight until they land or are lost; a request that the browser has given up
on may still land, and one that landed may still go unanswered. The Worker may die wherever a task waits, and an
operation that was not completed runs again from its start.

What the browser's log remembers of the library when a task goes on (its flags, its copy of `set:devices`) is an
input of the step (`Memory`).
-/

namespace DenEdge.Client

variable {D V P : Type}

/-- The two libraries of a move. -/
inductive Side where
  | old
  | new

inductive TaskKind where
  | move
  | settle
  | adopt
  deriving DecidableEq

/-- What a task reports; `threw` is one that failed, which completes no operation. -/
inductive Report where
  | moved
  | adopted
  | undone
  | held
  | foreign
  | unknown
  | updateRequired
  | profilesActive
  | unavailable
  | threw

/-- What the browser's log of the library remembers when a task goes on. -/
structure Memory (V : Type) where
  offline : Bool
  moved : Bool
  wireMin : ℕ
  instanceWire : ℕ
  preV4Backup : Bool
  readOnly : Bool
  generation : Option ℕ
  /-- `set:devices` and its sequence. -/
  devices : List (String × Setting V)
  devicesSeq : ℕ

structure MoveConfig (D V P : Type) where
  core : Core D V
  device : String
  /-- The successor tag of the destination. -/
  tag : String
  size : Planned D V P → ℕ
  /-- A time as a setting's value. -/
  seenAt : ℕ → V

/-- Where a task waits for an answer. -/
inductive Task (D V P : Type) where
  | idle
  /-- Reading the library to its head. -/
  | reading (round : ℕ) (dest : Dest D V) (since : ℕ) (entries : List (Feed.Entry String (Cell D V P)))
      (generation : Option ℕ)
  | copying (round : ℕ) (dest : Dest D V) (moving : Moving D V P) (copy : Copy D V P)
  /-- Asking where the library stands before it is deleted. -/
  | checking (round : ℕ) (dest : Dest D V) (moving : Moving D V P)
  | deleting (round : ℕ) (dest : Dest D V) (moving : Moving D V P)
  /-- Asking where the library stands after a deletion whose answer says nothing. -/
  | after (dest : Dest D V)
  /-- Moving the library's head on; then the destination is given up. -/
  | fencing (left : ℕ) (dest : Dest D V) (report : Report)
  | settling
  | adopting
  /-- Giving the destination up: asking for its generation, then deleting it. -/
  | asking (report : Report)
  | forgetting (report : Report)

/-- A task's turn: where it waits next, the request it sends, or what it reports. -/
structure Turn (D V P : Type) where
  task : Task D V P
  send : Option (Side × Request D V P)
  report : Option Report

def Turn.reports (report : Report) : Turn D V P := ⟨.idle, none, some report⟩

variable (cfg : MoveConfig D V P)

def RESET_ROUNDS : ℕ := 3

/-! ## Turns -/

/-- `#abandonReset`: the destination is deleted, under the generation den-edge gives it. -/
def abandonReset (dest : Dest D V) (report : Report) : Turn D V P :=
  match dest.generation with
  | none => ⟨.asking report, some (.new, .changes 0), none⟩
  | some generation => ⟨.forgetting report, some (.new, .delete (some generation) none none), none⟩

def MoveRefusal.report : MoveRefusal → Report
  | .updateRequired => .updateRequired
  | .profiles => .profilesActive
  | .unavailable => .unavailable

/-- What the log's flags refuse before anything is read. -/
def Memory.refuses (m : Memory V) : Option MoveRefusal :=
  if m.offline || m.moved || m.wireMin < WIRE then some .unavailable
  else if max WIRE m.instanceWire < m.wireMin || m.preV4Backup then some .updateRequired
  else none

/-- A round of a move: what it carries is read. -/
def moveRound (memory : Memory V) (round : ℕ) (dest : Dest D V) : Turn D V P :=
  if RESET_ROUNDS ≤ round then abandonReset dest .unavailable
  else match memory.refuses with
    | some refusal => abandonReset dest refusal.report
    | none => ⟨.reading round dest 0 [] none, some (.old, .changes 0), none⟩

/-- `endMoved`, once everything is copied. -/
def endMoved (round : ℕ) (dest : Dest D V) (moving : Moving D V P) : Turn D V P :=
  ⟨.checking round dest moving, some (.old, .changes 0), none⟩

/-- A batch of a copy is sent, or its end is reached. -/
def copyOn (round : ℕ) (dest : Dest D V) (moving : Moving D V P) (next : Except Bool (Copy D V P)) : Turn D V P :=
  match next with
  | .error true => endMoved round dest moving
  | .error false => abandonReset dest .unavailable
  | .ok copy =>
    ⟨.copying round dest moving copy,
      some (.new, .batch dest.generation ((copy.chunks.head?.getD []).map Planned.write)), none⟩

variable [DecidableEq D] [DecidableEq V] [DecidableEq P]

/-- `takeMoved`: what is carried is written to the destination. -/
def takeMoved (round : ℕ) (dest : Dest D V) (moving : Moving D V P) : Turn D V P :=
  copyOn round dest moving (beginRound cfg.core cfg.size dest ROUNDS
    (Assoc.ofList (moving.rows.map fun row => (cfg.core.rowName row, row))) (Assoc.ofList moving.kept))

/-- `readAll` and the rest of `moving`, a page at a time. -/
def readOn (now : ℕ) (round : ℕ) (dest : Dest D V) (entries : List (Feed.Entry String (Cell D V P)))
    (generation : Option ℕ) (pageGeneration : ℕ) (page : Feed.Page String (Cell D V P)) : Turn D V P :=
  if generation.any (· ≠ pageGeneration) then abandonReset dest .unavailable
  else
    let entries := entries ++ page.entries
    match page.more, page.entries.getLast? with
    | true, some last =>
      ⟨.reading round dest last.seq entries (some pageGeneration), some (.old, .changes last.seq), none⟩
    | _, _ =>
      match movingOf cfg.core cfg.device now (entries.map Feed.Entry.value) page.head pageGeneration with
      | .error refusal => abandonReset dest refusal.report
      | .ok moving => takeMoved cfg round dest moving

/-- The next round of a copy, once the batches of this one are answered. -/
def copyNext (round : ℕ) (dest : Dest D V) (moving : Moving D V P) (copy : Copy D V P) : Turn D V P :=
  if copy.chunks.isEmpty then
    copyOn round dest moving (beginRound cfg.core cfg.size dest copy.left copy.rows copy.kept)
  else copyOn round dest moving (.ok copy)

/-- `movedTo`: whose move a retired library's successor says it was. -/
def movedTo (dest : Dest D V) (successor : Option String) : Turn D V P :=
  match successor with
  | none => .reports .held
  | some tag => if tag = cfg.tag then .reports .moved else abandonReset dest .foreign

/-- `fence`: this device's `set:devices` entry is stamped again, so that the head moves on. -/
def fence (now : ℕ) (memory : Memory V) (dest : Dest D V) (report : Report) : ℕ → Turn D V P
  | 0 => .reports .unknown
  | left + 1 =>
    if memory.readOnly || memory.offline then .reports .unknown
    else
      let seen := (cfg.device ++ ".seen", (⟨cfg.seenAt now, (now, 0, cfg.device)⟩ : Setting V))
      let row : Row D V := .set ⟨"devices", Assoc.set memory.devices seen.1 seen.2⟩
      ⟨.fencing left dest report,
        some (.old, .batch memory.generation [⟨"set:devices", memory.devicesSeq, .row row⟩]), none⟩

/-- What a task does with an answer; `none` is no answer. -/
def answered (now : ℕ) (memory : Memory V) (answer : Option (Response D V P)) : Task D V P → Turn D V P
  | .idle => ⟨.idle, none, none⟩
  | .reading round dest _ entries generation =>
    match answer with
    | some (.page pageGeneration page) => readOn cfg now round dest entries generation pageGeneration page
    | _ => abandonReset dest .unavailable
  | .copying round dest moving copy =>
    match answer with
    -- the request's own failure is not caught: the task fails, and the destination stays
    | none => .reports .threw
    | some (.batch generation applied conflicts) =>
      match takeAnswer now generation applied conflicts dest copy with
      | some (dest, copy) => copyNext cfg round dest moving copy
      | none => abandonReset { dest with generation := some generation } .unavailable
    | some _ => abandonReset dest .unavailable
  | .checking round dest moving =>
    match answer with
    | some (.page generation page) =>
      if page.head ≠ moving.head ∨ generation ≠ moving.generation then moveRound memory (round + 1) dest
      else ⟨.deleting round dest moving,
        some (.old, .delete (some moving.generation) (some moving.head) (some cfg.tag)), none⟩
    | some (.gone successor) => movedTo cfg dest successor
    | _ => abandonReset dest .unavailable
  | .deleting round dest _ =>
    match answer with
    | some .deleted => .reports .moved
    -- refused before anything changed: the copy goes again
    | some .changed => moveRound memory (round + 1) dest
    | _ => ⟨.after dest, some (.old, .changes 0), none⟩
  | .after dest =>
    match answer with
    | some (.page _ _) => fence cfg now memory dest .unavailable ROUNDS
    | some (.gone successor) => movedTo cfg dest successor
    | _ => .reports .unknown
  | .fencing left dest report =>
    match answer with
    | some (.batch _ applied _) =>
      if (Assoc.get applied "set:devices").isSome then abandonReset dest report
      else fence cfg now memory dest report left
    | _ => fence cfg now memory dest report left
  | .settling =>
    match answer with
    | some (.page _ _) => fence cfg now memory Dest.new .undone ROUNDS
    | some (.gone (some tag)) => if tag = cfg.tag then .reports .adopted else abandonReset Dest.new .foreign
    | some (.gone none) => .reports .held
    | _ => .reports .unknown
  | .adopting =>
    match answer with
    | some (.gone none) => .reports .adopted
    | some (.gone (some _)) => .reports .foreign
    | some (.page _ _) => .reports .unavailable
    | _ => .reports .unknown
  | .asking report =>
    let generation := match answer with
      | some (.page generation _) => some generation
      | _ => none
    ⟨.forgetting report, some (.new, .delete generation none none), none⟩
  | .forgetting report => .reports report

/-- `#writable`: the log takes writes. -/
def Memory.writable (m : Memory V) : Bool := !m.moved && !m.readOnly

/-- A task's first turn. A move throws where the log takes no writes. -/
def begun (memory : Memory V) : TaskKind → Turn D V P
  | .move =>
    if !memory.writable then .reports .threw
    else if memory.offline then .reports .unavailable
    else moveRound memory 0 Dest.new
  | .settle => ⟨.settling, some (.old, .changes 0), none⟩
  | .adopt => ⟨.adopting, some (.old, .changes 0), none⟩

/-! ## The machine -/

/-- A request on its way. -/
structure Flight (D V P : Type) where
  id : ℕ
  side : Side
  request : Request D V P

/-- Both libraries, the requests on their way, and the task. -/
structure World (D V P : Type) where
  old : Edge D V P
  new : Edge D V P
  clock : ℕ
  flight : List (Flight D V P)
  next : ℕ
  task : Task D V P
  /-- The request the task waits for, and its answer once it is on its way back. -/
  awaited : ℕ
  answer : Option (Response D V P)
  /-- The operation that runs. -/
  operation : String
  /-- What is kept of each operation: its kind, and its result once it is complete. -/
  journal : String → Option (TaskKind × Option Report)

inductive Event (D V P : Type) where
  | tick (ms : ℕ)
  /-- Another device's write to the old library. -/
  | others (key : String) (cell : Cell D V P)
  /-- The old library is restored, under a fresh generation. -/
  | restore (rows : List (String × Cell D V P)) (head : ℕ)
  | start (operation : String) (kind : TaskKind) (memory : Memory V)
  | land (id : ℕ) (landing : Landing)
  | lose (id : ℕ)
  | answer (memory : Memory V)
  | fail (memory : Memory V)
  | die

/-- The world once a task has taken its turn. -/
def World.take (w : World D V P) (turn : Turn D V P) : World D V P :=
  { w with
    task := turn.task
    answer := none
    awaited := w.next
    next := w.next + 1
    flight := match turn.send with
      | some (side, request) => w.flight ++ [⟨w.next, side, request⟩]
      | none => w.flight
    journal := match turn.report with
      | none | some .threw => w.journal
      | some report => Function.update w.journal w.operation
          ((w.journal w.operation).map fun entry => (entry.1, some report)) }

def restored (rows : List (String × Cell D V P)) (head : ℕ) : Store D V P :=
  let feed := rows.foldl (fun feed e => feed.put e.1 (openAs cfg.core e.1 e.2)) Feed.empty
  { feed with head := max head feed.head }

/-- A request lands: its library is served, and the answer goes back if the task still waits for it. -/
def World.land (w : World D V P) (f : Flight D V P) (landing : Landing) : World D V P :=
  let served := serve cfg.core (match f.side with | .old => w.old | .new => w.new) f.request landing
  { w with
    old := match f.side with | .old => served.1 | .new => w.old
    new := match f.side with | .old => w.new | .new => served.1
    flight := w.flight.filter (·.id ≠ f.id)
    answer := if f.id = w.awaited then some served.2 else w.answer }

def World.step (w : World D V P) : Event D V P → World D V P
  | .tick ms => { w with clock := w.clock + ms }
  | .others key cell =>
    match w.old with
    | .live generation feed => { w with old := .live generation (feed.put key (openAs cfg.core key cell)) }
    | _ => w
  | .restore rows head =>
    match w.old with
    | .live generation _ => { w with old := .live (generation + 1) (restored cfg rows head) }
    | _ => w
  | .start operation kind memory =>
    match w.task with
    | .idle =>
      match w.journal operation with
      | some (_, some _) => w
      | some (kind', none) =>
        if kind' = kind then { w with operation := operation }.take (begun memory kind) else w
      | none =>
        { w with
          operation := operation
          journal := Function.update w.journal operation (some (kind, none)) }.take (begun memory kind)
    | _ => w
  | .land id landing =>
    match w.flight.find? (·.id = id) with
    | none => w
    | some f => w.land cfg f landing
  | .lose id => { w with flight := w.flight.filter (·.id ≠ id) }
  | .answer memory =>
    match w.answer with
    | none => w
    | some answer => w.take (answered cfg w.clock memory (some answer) w.task)
  | .fail memory =>
    match w.task with
    | .idle => w
    | _ => w.take (answered cfg w.clock memory none w.task)
  | .die => { w with task := .idle, answer := none }

/-- A library that is live, and a destination not started yet. -/
def World.start (generation : ℕ) (feed : Store D V P) : World D V P where
  old := .live generation feed
  new := .absent
  clock := 0
  flight := []
  next := 0
  task := .idle
  awaited := 0
  answer := none
  operation := ""
  journal := fun _ => none

end DenEdge.Client
