import DenEdge.Base.Assoc
import DenEdge.Base.Evict
import DenEdge.Base.Run
import DenEdge.Store.Row
import Mathlib.Data.Prod.Lex

/-!
# The open databases of version 3 libraries

A manager opens each library's database when it is first asked for and keeps it open in a slot. The registry
charges each open database a fixed number of bytes, taken before it is opened. A call of `library` clones the
slot, waits for its lock, and either finds a database there or opens one; in the end it hands out a lease. What
others do between these points may interleave, so each of them is a step.

Slots are kept by their serial number in a heap, for a call can hold one that has left the registry. Of the file
system, the token check and the protocol index, only how they answer is kept, as an input of the step.

* `Manager.reserveOpen`: the charge of a database, for which idle ones may be closed.
* `Manager.step`: one step of a call, of a lease, or of a removal.
-/

namespace DenEdge.Databases

def PAGE_BYTES : ℕ := 512 * 1024

/-- What an open database is charged: its handle, and a prepared page. -/
def OPEN_DATABASE_BYTES : ℕ := 112 * 1024 + (PAGE_BYTES + 64 * 1024)

def COMPACTION_BYTES : ℕ := 1536 * 1024

def RETAINED_DATABASES : ℕ := 2

/-- The manager's memory cap, and what it charges. -/
structure Config where
  cap : ℕ
  openBytes : ℕ
  compactionBytes : ℕ
  retained : ℕ

/-- What the server charges, under its memory cap. -/
def charges (cap : ℕ) : Config := ⟨cap, OPEN_DATABASE_BYTES, COMPACTION_BYTES, RETAINED_DATABASES⟩

/-! ## The state -/

structure Slot where
  /-- The library it was made for. -/
  id : String
  /-- The open database it holds. -/
  store : Option ℕ
  /-- The call that has its lock. -/
  lockedBy : Option ℕ
  lastUsed : ℕ

/-- The slot of each library, and the bytes charged. -/
structure Registry where
  slots : List (String × ℕ)
  bytes : ℕ

/-- How far a call of `library` has come. -/
inductive Phase where
  /-- It has the slot, and waits for its lock. -/
  | waiting
  | locked
  /-- There was no room to open the database of a slot it has registered. -/
  | refused
  /-- The database is charged, and about to be opened. -/
  | reserved
  /-- It is over, and still has the lock. -/
  | leaving
  /-- It has given up the lock, and still has the slot. -/
  | left
  /-- It only looks for the credentials of an open database. -/
  | peeking
  deriving DecidableEq

/-- A call that is to use a library. -/
structure Call where
  id : String
  serial : ℕ
  /-- Whether the call made the slot. -/
  inserted : Bool
  phase : Phase

inductive Use where
  | lease
  /-- A lease that compacts its database. -/
  | compacting
  /-- A lease whose drop has run. -/
  | dropped
  /-- A reference that is no lease. -/
  | plain
  deriving DecidableEq

/-- A reference to an open database, outside the slots. -/
structure Ref where
  store : ℕ
  use : Use

/-- The registry, the slots, and who uses them. -/
structure Manager where
  registry : Registry
  heap : List (ℕ × Slot)
  calls : List (ℕ × Call)
  refs : List (ℕ × Ref)
  /-- How many slots were made. -/
  made : ℕ

namespace Manager

def init : Manager := ⟨⟨[], 0⟩, [], [], [], 0⟩

/-! ## Closing idle databases -/

variable (w : Manager)

/-- Someone other than the registry has the slot. -/
def held (serial : ℕ) : Bool := w.calls.any fun e => e.2.serial = serial

/-- Someone other than the slot has the database, the reference `own` apart. -/
def shared (serial store : ℕ) (own : Option ℕ) : Bool :=
  (w.refs.any fun e => e.2.store = store && some e.1 ≠ own) ||
    w.heap.any fun e => e.1 ≠ serial && e.2.store = some store

/-- The slot has an open database that nobody uses. -/
def evictable (own : Option ℕ) (serial : ℕ) : Bool :=
  match Assoc.get w.heap serial with
  | none => false
  | some slot =>
    match slot.store with
    | none => false
    | some store => slot.lockedBy.isNone && !w.held serial && !w.shared serial store own

/-- The database is closed and its slot leaves the registry. -/
def evict (config : Config) (w : Manager) (id : String) : Manager :=
  match Assoc.get w.registry.slots id with
  | none => w
  | some serial =>
    match Assoc.get w.heap serial with
    | none => w
    | some slot =>
      { w with
        registry := ⟨Assoc.erase w.registry.slots id, w.registry.bytes - config.openBytes⟩
        heap := Assoc.set w.heap serial { slot with store := none } }

/-- The evictable slot unused for longest, of those that may go. -/
def victim (may : String → Bool) (own : Option ℕ) (rank : String → ℕ) (w : Manager) : Option String :=
  Evict.least (fun id serial => may id && w.evictable own serial)
    (fun e => toLex (((Assoc.get w.heap e.2).map Slot.lastUsed).getD 0, rank e.1)) w.registry.slots

/-- Idle databases are closed until one more fits under the cap, and it is charged. -/
def reserveOpen (config : Config) (id : String) (rank : String → ℕ) (w : Manager) : Bool × Manager :=
  match Evict.loop (fun w : Manager => config.cap < w.registry.bytes + config.openBytes)
    (victim (fun key => key ≠ id) none rank) (evict config) w.registry.slots.length w with
  | (false, w) => (false, w)
  | (true, w) => (true, { w with registry := { w.registry with bytes := w.registry.bytes + config.openBytes } })

/-! ## The calls -/

def setCall (c : ℕ) (call : Call) : Manager := { w with calls := Assoc.set w.calls c call }

def setSlot (serial : ℕ) (slot : Slot) : Manager := { w with heap := Assoc.set w.heap serial slot }

def setRef (r : ℕ) (ref : Ref) : Manager := { w with refs := Assoc.set w.refs r ref }

/-- A call of `library` takes the slot of its library, which is made if there is none. One of an invalid id is
refused. -/
def enter (c : ℕ) (id : String) (now : ℕ) : Manager :=
  if validHexId id = false ∨ (Assoc.get w.calls c).isSome then w
  else
    match Assoc.get w.registry.slots id with
    | some serial =>
      match Assoc.get w.heap serial with
      | none => w
      | some slot => (w.setSlot serial { slot with lastUsed := now }).setCall c ⟨id, serial, false, .waiting⟩
    | none =>
      { w with
        registry := { w.registry with slots := Assoc.set w.registry.slots id w.made }
        heap := Assoc.set w.heap w.made ⟨id, none, none, now⟩
        calls := Assoc.set w.calls c ⟨id, w.made, true, .waiting⟩
        made := w.made + 1 }

/-- A call that is in some phase goes on. -/
def proceed (c : ℕ) (phase : Phase) (f : Call → Slot → Manager) : Manager :=
  match Assoc.get w.calls c with
  | none => w
  | some call =>
    match Assoc.get w.heap call.serial with
    | none => w
    | some slot => if call.phase = phase then f call slot else w

def lock (c : ℕ) : Manager :=
  w.proceed c .waiting fun call slot =>
    if slot.lockedBy = none then
      (w.setSlot call.serial { slot with lockedBy := some c }).setCall c { call with phase := .locked }
    else w

/-- The database is open already: a lease `r` of it is handed out, or none where the token is wrong. -/
def found (c : ℕ) (accepts : Bool) (r : ℕ) : Manager :=
  w.proceed c .locked fun call slot =>
    match slot.store with
    | none => w
    | some store =>
      if (Assoc.get w.refs r).isSome then w
      else if accepts then (w.setCall c { call with phase := .leaving }).setRef r ⟨store, .lease⟩
      else w.setCall c { call with phase := .leaving }

/-- A leftover temporary file cannot be removed. -/
def tidyFailed (c : ℕ) : Manager :=
  w.proceed c .locked fun call slot =>
    if slot.store = none then w.setCall c { call with phase := .leaving } else w

def reserve (config : Config) (c : ℕ) (rank : String → ℕ) : Manager :=
  w.proceed c .locked fun call slot =>
    if slot.store = none then
      match w.reserveOpen config call.id rank with
      | (true, w) => w.setCall c { call with phase := .reserved }
      | (false, w) => w.setCall c { call with phase := if call.inserted then .refused else .leaving }
    else w

/-- The slot a refused call had registered leaves the registry if nobody else has it. -/
def unregister (c : ℕ) : Manager :=
  w.proceed c .refused fun call slot =>
    let others := w.calls.any fun e => e.1 ≠ c && e.2.serial = call.serial
    let w' := w.setCall c { call with phase := .leaving }
    if Assoc.get w.registry.slots call.id = some call.serial ∧ others = false ∧ slot.store = none then
      { w' with registry := { w.registry with slots := Assoc.erase w.registry.slots call.id } }
    else w'

/-- The database is opened, and its protocol read, reconciled and recorded in the index (`indexed`), or one of
these failed. -/
def opened (c store : ℕ) (indexed : Bool) (r : ℕ) : Manager :=
  w.proceed c .reserved fun call slot =>
    if (Assoc.get w.refs r).isSome then w
    else if indexed then
      ((w.setSlot call.serial { slot with store := some store }).setCall c
        { call with phase := .leaving }).setRef r ⟨store, .lease⟩
    else w.setCall c { call with phase := .leaving }

/-- The database is not opened, for its token is wrong or it cannot be. -/
def openFailed (config : Config) (c : ℕ) : Manager :=
  w.proceed c .reserved fun call _ =>
    let slots :=
      if Assoc.get w.registry.slots call.id = some call.serial then Assoc.erase w.registry.slots call.id
      else w.registry.slots
    { w with
      registry := ⟨slots, w.registry.bytes - config.openBytes⟩
      calls := Assoc.set w.calls c { call with phase := .leaving } }

def unlock (c : ℕ) : Manager :=
  w.proceed c .leaving fun call slot =>
    (w.setSlot call.serial { slot with lockedBy := none }).setCall c { call with phase := .left }

/-- A call drops its slot, which is gone if nobody has it any more. -/
def release (c : ℕ) : Manager :=
  w.proceed c .left fun call _ =>
    let others := w.calls.any fun e => e.1 ≠ c && e.2.serial = call.serial
    let w' : Manager := { w with calls := Assoc.erase w.calls c }
    if Assoc.get w.registry.slots call.id = some call.serial ∨ others = true then w'
    else { w' with heap := Assoc.erase w.heap call.serial }

/-- A look for the credentials takes the slot if there is one. -/
def peek (c : ℕ) (id : String) : Manager :=
  if (Assoc.get w.calls c).isSome then w
  else
    match Assoc.get w.registry.slots id with
    | none => w
    | some serial => w.setCall c ⟨id, serial, false, .peeking⟩

/-- The database of the slot is cloned under its lock, which is given up at once. -/
def read (c r : ℕ) : Manager :=
  w.proceed c .peeking fun call slot =>
    if slot.lockedBy ≠ none ∨ (Assoc.get w.refs r).isSome then w
    else
      match slot.store with
      | none => w.setCall c { call with phase := .left }
      | some store => (w.setCall c { call with phase := .left }).setRef r ⟨store, .plain⟩

/-! ## Leases and removals -/

/-- A compaction is charged if there is room for it. They run one at a time. -/
def compact (config : Config) (r : ℕ) : Manager :=
  match Assoc.get w.refs r with
  | none => w
  | some ref =>
    if ref.use = .lease ∧ (w.refs.any fun e => e.2.use = .compacting) = false ∧
        w.registry.bytes + config.compactionBytes ≤ config.cap then
      { w.setRef r { ref with use := .compacting } with
        registry := { w.registry with bytes := w.registry.bytes + config.compactionBytes } }
    else w

def compacted (config : Config) (r : ℕ) : Manager :=
  match Assoc.get w.refs r with
  | none => w
  | some ref =>
    if ref.use = .compacting then
      { w.setRef r { ref with use := .lease } with
        registry := { w.registry with bytes := w.registry.bytes - config.compactionBytes } }
    else w

/-- A lease is dropped: idle databases, its own among them, are closed down to those that are retained. -/
def dropLease (config : Config) (r : ℕ) (rank : String → ℕ) : Manager :=
  match Assoc.get w.refs r with
  | none => w
  | some ref =>
    if ref.use = .lease then
      let w' := (Evict.loop (fun w : Manager => config.retained * config.openBytes < w.registry.bytes)
        (victim (fun _ => true) (some r) rank) (evict config) w.registry.slots.length w).2
      w'.setRef r { ref with use := .dropped }
    else w

/-- A reference is gone. -/
def gone (r : ℕ) : Manager :=
  match Assoc.get w.refs r with
  | none => w
  | some ref => if ref.use = .dropped ∨ ref.use = .plain then { w with refs := Assoc.erase w.refs r } else w

/-- A library's database is closed and its slot leaves the registry, unless it is in use. -/
def remove (config : Config) (id : String) : Manager :=
  match Assoc.get w.registry.slots id with
  | none => w
  | some serial =>
    match Assoc.get w.heap serial with
    | none => w
    | some slot =>
      if slot.lockedBy ≠ none then w
      else
        match slot.store with
        | none => { w with registry := { w.registry with slots := Assoc.erase w.registry.slots id } }
        | some store => if w.shared serial store none then w else w.evict config id

inductive Event where
  | enter (c : ℕ) (id : String) (now : ℕ)
  | lock (c : ℕ)
  | found (c : ℕ) (accepts : Bool) (r : ℕ)
  | tidyFailed (c : ℕ)
  | reserve (c : ℕ) (rank : String → ℕ)
  | unregister (c : ℕ)
  | opened (c store : ℕ) (indexed : Bool) (r : ℕ)
  | openFailed (c : ℕ)
  | unlock (c : ℕ)
  | release (c : ℕ)
  | peek (c : ℕ) (id : String)
  | read (c r : ℕ)
  | compact (r : ℕ)
  | compacted (r : ℕ)
  | dropLease (r : ℕ) (rank : String → ℕ)
  | gone (r : ℕ)
  | remove (id : String)

def step (config : Config) (w : Manager) : Event → Manager
  | .enter c id now => w.enter c id now
  | .lock c => w.lock c
  | .found c accepts r => w.found c accepts r
  | .tidyFailed c => w.tidyFailed c
  | .reserve c rank => w.reserve config c rank
  | .unregister c => w.unregister c
  | .opened c store indexed r => w.opened c store indexed r
  | .openFailed c => w.openFailed config c
  | .unlock c => w.unlock c
  | .release c => w.release c
  | .peek c id => w.peek c id
  | .read c r => w.read c r
  | .compact r => w.compact config r
  | .compacted r => w.compacted config r
  | .dropLease r rank => w.dropLease config r rank
  | .gone r => w.gone r
  | .remove id => w.remove config id

end Manager

end DenEdge.Databases
