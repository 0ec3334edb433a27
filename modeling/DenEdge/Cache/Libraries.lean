import DenEdge.Base.Assoc
import DenEdge.Base.Evict
import DenEdge.Base.Run
import Mathlib.Data.Prod.Lex

/-!
# The cache of version 2 libraries

One slot per library, each with its own lock, in a registry that counts the bytes of all of them (`Registry`). A
request holds a slot from the call of `slot` on; it waits for the slot's lock, and while it has the lock it may
reserve room for what it loads, give the room back, and take the library out.

Of a library only its charged bytes are kept, and of the map's iteration order only which of two slots used
equally long ago comes first (`rank`). A request's slot is the registered one or not by its `serial`. A slot that
leaves the registry is not followed any further: no request has one (`Sound.held`).

* `Registry.adjust`: the change of one slot's charge, which may evict other libraries.
* `Libraries.slot`, `reserve`, `resize`, `commit`, `cancel`: the calls.
* `Libraries.step`: one of them, in a run.
-/

namespace DenEdge.Cache

def IDLE_MS : ℕ := 60 * 60 * 1000

def MAX_CACHED_LIBRARIES : ℕ := 128

structure Limits where
  libraryBytes : ℕ
  cacheBytes : ℕ

/-! ## The registry -/

structure Slot where
  /-- Which slot it is, of all that were made. -/
  serial : ℕ
  /-- The charged bytes of the library it holds. -/
  library : Option ℕ
  /-- The request that has its lock. -/
  lockedBy : Option ℕ
  lastUsed : ℕ
  /-- Whether the library's authority is known to be version 3. -/
  v3 : Bool

structure Registry where
  slots : List (String × Slot)
  bytes : ℕ
  loaded : ℕ

/-- A slot leaves the registry, and its library the count. -/
def Registry.evict (reg : Registry) (id : String) : Registry :=
  match (Assoc.get reg.slots id).bind Slot.library with
  | none => { reg with slots := Assoc.erase reg.slots id }
  | some bytes => ⟨Assoc.erase reg.slots id, reg.bytes - bytes, reg.loaded - 1⟩

/-- The slot unused for longest, of those that may go. -/
def Registry.victim (may : String → Slot → Bool) (rank : String → ℕ) (reg : Registry) : Option String :=
  Evict.least may (fun e => toLex (e.2.lastUsed, rank e.1)) reg.slots

/-- Why a charge is not changed. -/
inductive Refusal where
  | full
  | left
  | underflow
  | busy
  deriving DecidableEq

/-- What a change of a charge adds to the number of loaded libraries. -/
def adding (old needed : ℕ) : ℕ := if old = 0 ∧ needed ≠ 0 then 1 else 0

/-- What it takes off that number. -/
def leaving (old needed : ℕ) : ℕ := if old ≠ 0 ∧ needed = 0 then 1 else 0

/-- The charge of the slot `id` goes from `old` to `needed` bytes. Inactive libraries make room for it; those
evicted before it turns out that there is none stay evicted. -/
def Registry.adjust (limits : Limits) (busy : String → Slot → Bool) (rank : String → ℕ) (id : String)
    (serial old needed : ℕ) (reg : Registry) : Except Refusal Unit × Registry :=
  if limits.libraryBytes < needed ∨ limits.cacheBytes < needed then (.error .full, reg)
  else if (Assoc.get reg.slots id).map Slot.serial ≠ some serial then (.error .left, reg)
  else if reg.bytes < old then (.error .underflow, reg)
  else
    let full (reg : Registry) : Bool :=
      limits.cacheBytes < reg.bytes - old + needed || MAX_CACHED_LIBRARIES < reg.loaded + adding old needed
    let may (key : String) (slot : Slot) : Bool := key ≠ id && !busy key slot
    match Evict.loop full (Registry.victim may rank) Registry.evict reg.slots.length reg with
    | (false, reg) => (.error .busy, reg)
    | (true, reg) =>
      (.ok (), { reg with
        bytes := reg.bytes - old + needed
        loaded := reg.loaded + adding old needed - leaving old needed })

/-! ## The requests -/

structure Reservation where
  old : ℕ
  current : ℕ
  deriving DecidableEq

/-- A request that holds a slot, with the reservation it has not committed and the library it has taken out. -/
structure Holder where
  id : String
  serial : ℕ
  reservation : Option Reservation
  taken : Option ℕ

/-- The bytes of the library in the slot and of the one its lock holder has taken out. -/
def Holder.memory (holder : Holder) (slot : Slot) : ℕ := slot.library.getD 0 + holder.taken.getD 0

/-- The registry, and the tasks that have a slot. -/
structure Libraries where
  registry : Registry
  holders : List (ℕ × Holder)
  /-- How many slots were made. -/
  made : ℕ

namespace Libraries

def init : Libraries := ⟨⟨[], 0, 0⟩, [], 0⟩

variable (limits : Limits) (w : Libraries)

/-- Someone besides the registry has the slot. -/
def busy (id : String) (slot : Slot) : Bool :=
  w.holders.any fun e => e.2.id = id && e.2.serial = slot.serial

/-- Slots nobody holds go when they were not used for long, or hold no library and are not known as version 3. -/
def removable (now : ℕ) (id : String) (slot : Slot) : Bool :=
  !w.busy id slot && (IDLE_MS ≤ now - slot.lastUsed || !slot.v3 && slot.lockedBy.isNone && slot.library.isNone)

/-- What leaves the registry before a slot is handed out. -/
def tidied (id : String) (now : ℕ) (rank : String → ℕ) : Registry :=
  let stale := (w.registry.slots.filter fun e => w.removable now e.1 e.2).map Prod.fst
  let reg := stale.foldl Registry.evict w.registry
  let full (reg : Registry) : Bool := (Assoc.get reg.slots id).isNone && MAX_CACHED_LIBRARIES ≤ reg.slots.length
  let may (key : String) (slot : Slot) : Bool := !w.busy key slot
  (Evict.loop full (Registry.victim may rank) Registry.evict reg.slots.length reg).2

/-- A request is handed the slot of a library, which is made if there is none. -/
def slot (t : ℕ) (id : String) (now : ℕ) (rank : String → ℕ) : Libraries :=
  if (Assoc.get w.holders t).isSome then w
  else
    let reg := w.tidied id now rank
    match Assoc.get reg.slots id with
    | some slot =>
      { w with
        registry := { reg with slots := Assoc.set reg.slots id { slot with lastUsed := now } }
        holders := Assoc.set w.holders t ⟨id, slot.serial, none, none⟩ }
    | none =>
      { registry := { reg with slots := Assoc.set reg.slots id ⟨w.made, none, none, now, false⟩ }
        holders := Assoc.set w.holders t ⟨id, w.made, none, none⟩
        made := w.made + 1 }

/-- A request with its slot, as the registry has it. -/
def held (t : ℕ) : Option (Holder × Slot) :=
  match Assoc.get w.holders t with
  | none => none
  | some holder =>
    match Assoc.get w.registry.slots holder.id with
    | none => none
    | some slot => if slot.serial = holder.serial then some (holder, slot) else none

/-- A request and its slot are changed. -/
def put (t : ℕ) (holder : Holder) (slot : Slot) : Libraries :=
  { w with
    registry := { w.registry with slots := Assoc.set w.registry.slots holder.id slot }
    holders := Assoc.set w.holders t holder }

/-- What a request with the lock does to its slot and to what it has in hand. -/
def locked (t : ℕ) (f : Holder → Slot → Option (Holder × Slot)) : Libraries :=
  match w.held t with
  | none => w
  | some (holder, slot) =>
    if slot.lockedBy = some t then
      match f holder slot with
      | none => w
      | some (holder, slot) => w.put t holder slot
    else w

def lock (t : ℕ) : Libraries :=
  match w.held t with
  | none => w
  | some (holder, slot) => if slot.lockedBy = none then w.put t holder { slot with lockedBy := some t } else w

/-- The authority of the library is stored in its slot. -/
def publish (t : ℕ) (v3 : Bool) : Libraries :=
  match w.held t with
  | none => w
  | some (holder, slot) => w.put t holder { slot with v3 := v3 }

/-- The charge of a request's slot goes from `old` to `needed`, and with it the request's reservation. -/
def recharge (t : ℕ) (rank : String → ℕ) (old needed : ℕ) (reservation : Option Reservation)
    (holder : Holder) : Libraries :=
  match w.registry.adjust limits w.busy rank holder.id holder.serial old needed with
  | (.error _, reg) => { w with registry := reg }
  | (.ok (), reg) =>
    { w with registry := reg, holders := Assoc.set w.holders t { holder with reservation := reservation } }

/-- Room is reserved in place of what is charged for the slot now. -/
def reserve (t needed : ℕ) (rank : String → ℕ) : Libraries :=
  match w.held t with
  | none => w
  | some (holder, slot) =>
    if slot.lockedBy = some t ∧ holder.reservation = none then
      w.recharge limits t rank (holder.memory slot) needed (some ⟨holder.memory slot, needed⟩) holder
    else w

def resize (t needed : ℕ) (rank : String → ℕ) : Libraries :=
  match Assoc.get w.holders t with
  | none => w
  | some holder =>
    match holder.reservation with
    | none => w
    | some r => w.recharge limits t rank r.current needed (some { r with current := needed }) holder

/-- A reservation stands: the library it was for is in the slot, or there is none where nothing is reserved. What
was taken out is gone. -/
def commit (t : ℕ) : Libraries :=
  w.locked t fun holder slot =>
    holder.reservation.map fun r =>
      ({ holder with reservation := none, taken := none },
        { slot with library := if r.current = 0 then none else some r.current })

/-- A reservation is dropped uncommitted, and its charge rolled back. Where the rollback fails it panics, and the
charge stays as it is. -/
def cancel (t : ℕ) (rank : String → ℕ) : Libraries :=
  match Assoc.get w.holders t with
  | none => w
  | some holder =>
    match holder.reservation with
    | none => w
    | some r =>
      { w with
        registry := (w.registry.adjust limits w.busy rank holder.id holder.serial r.current r.old).2
        holders := Assoc.set w.holders t { holder with reservation := none } }

def take (t : ℕ) : Libraries :=
  w.locked t fun holder slot =>
    if holder.reservation = none then
      slot.library.map fun bytes => ({ holder with taken := some bytes }, { slot with library := none })
    else none

/-- What was taken out is put back. -/
def putBack (t : ℕ) : Libraries :=
  w.locked t fun holder slot =>
    if holder.reservation = none then
      holder.taken.map fun bytes => ({ holder with taken := none }, { slot with library := some bytes })
    else none

/-- The lock is given up, and with it what the request has in hand. Its reservation was dropped before. -/
def unlock (t : ℕ) : Libraries :=
  w.locked t fun holder slot =>
    if holder.reservation = none then some ({ holder with taken := none }, { slot with lockedBy := none })
    else none

/-- A request that has given up the lock, or never had it, is done with its slot. -/
def release (t : ℕ) : Libraries :=
  match w.held t with
  | none => w
  | some (_, slot) => if slot.lockedBy = some t then w else { w with holders := Assoc.erase w.holders t }

inductive Event where
  | slot (t : ℕ) (id : String) (now : ℕ) (rank : String → ℕ)
  | lock (t : ℕ)
  | publish (t : ℕ) (v3 : Bool)
  | reserve (t needed : ℕ) (rank : String → ℕ)
  | resize (t needed : ℕ) (rank : String → ℕ)
  | commit (t : ℕ)
  | cancel (t : ℕ) (rank : String → ℕ)
  | take (t : ℕ)
  | putBack (t : ℕ)
  | unlock (t : ℕ)
  | release (t : ℕ)

def step : Event → Libraries
  | .slot t id now rank => w.slot t id now rank
  | .lock t => w.lock t
  | .publish t v3 => w.publish t v3
  | .reserve t needed rank => w.reserve limits t needed rank
  | .resize t needed rank => w.resize limits t needed rank
  | .commit t => w.commit t
  | .cancel t rank => w.cancel limits t rank
  | .take t => w.take t
  | .putBack t => w.putBack t
  | .unlock t => w.unlock t
  | .release t => w.release t

end Libraries

end DenEdge.Cache
