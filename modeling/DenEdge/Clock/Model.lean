import DenEdge.Base.Run
import DenEdge.Base.Storage
import DenEdge.Client.Rows
import Mathlib.Data.Prod.Lex
import Mathlib.Data.String.Basic

/-!
# The durable clock of a browser

A browser's stamps come from one record in its vault: the device, the last stamp it issued or saw, and how many
stamps it has reserved for times of the past. Any number of tabs and Workers open the record and change it, each
change in one atomic update of the vault, or, in a vault without one, read and written back under a Web Lock; a
write may fail, and a tab may die at any call, its effect done or not.

What den-core answers to `issue` is a parameter; what it is assumed to be is `Issues`.
-/

namespace DenEdge.Clock

open DenEdge.Client (Stamp ZERO_STAMP)

def MAX_SAFE_INTEGER : ℕ := 2 ^ 53 - 1

/-! ## Stamps -/

/-- The UTF-16 units of a string, which JavaScript's `<` goes by. -/
def units (s : String) : List ℕ :=
  s.toList.flatMap fun c =>
    if c.toNat < 0x10000 then [c.toNat]
    else [0xD800 + (c.toNat - 0x10000) / 0x400, 0xDC00 + (c.toNat - 0x10000) % 0x400]

/-- `compareStamps(a, b) > 0`: by time, then by counter, then by device. -/
def later (a b : Stamp) : Bool :=
  b.1 < a.1 || (b.1 = a.1 && (b.2.1 < a.2.1 || (b.2.1 = a.2.1 && units b.2.2 < units a.2.2)))

def validStamp (s : Stamp) : Bool := s.1 ≤ MAX_SAFE_INTEGER && s.2.1 ≤ MAX_SAFE_INTEGER

/-- 16 lower-case hexadecimal digits. -/
def validDevice (device : String) : Bool :=
  device.length = 16 && device.toList.all fun c => c.isDigit || ('a' ≤ c && c ≤ 'f')

/-! ## The record -/

structure StoredClock where
  device : String
  last : Stamp
  historicalCounter : ℕ
  deriving DecidableEq

/-- A record as it is read: one whose values are not valid is none. -/
def decode (c : StoredClock) : Option StoredClock :=
  if validDevice c.device && validStamp c.last && c.historicalCounter ≤ MAX_SAFE_INTEGER then some c else none

/-- The record a new vault starts with: the old clock's values where they are valid. -/
def seed (legacyDevice : Option String) (created : String) (legacyLast : Option Stamp) : Option StoredClock :=
  let device := (legacyDevice.filter validDevice).getD created
  if validDevice device then some ⟨device, (legacyLast.filter validStamp).getD ZERO_STAMP, 0⟩ else none

/-! ## Operations -/

inductive Op where
  | issue (now : ℕ)
  | historical (milliseconds : List ℕ)
  | see (stamp : Stamp)
  | current
  deriving DecidableEq

/-- What is refused before the vault is asked. -/
def Op.valid : Op → Bool
  | .historical milliseconds => milliseconds.all (· ≤ MAX_SAFE_INTEGER)
  | .see stamp => validStamp stamp
  | .issue _ | .current => true

/-- den-core's `issue`, of the last stamp, the time and the device: a stamp, or it throws. -/
abbrev Issue := Stamp → ℕ → String → Option Stamp

/-- The stamps of a list of past times: each has its own counter. -/
def reserved (c : StoredClock) (milliseconds : List ℕ) : List Stamp :=
  milliseconds.mapIdx fun index at_ => (at_, c.historicalCounter + index + 1, c.device)

/-- The latest of some stamps and one before them. -/
def newest (stamps : List Stamp) (last : Stamp) : Stamp :=
  stamps.foldl (fun last stamp => if later stamp last then stamp else last) last

/-- What an operation makes of the record, and what it answers; nothing where it throws. -/
def Op.change (issue : Issue) : Op → StoredClock → Option (StoredClock × List Stamp)
  | .issue now, c => (issue c.last now c.device).map fun stamp => ({ c with last := stamp }, [stamp])
  | .historical milliseconds, c =>
    if MAX_SAFE_INTEGER < c.historicalCounter + milliseconds.length then none
    else
      let stamps := reserved c milliseconds
      some ({ c with
        historicalCounter := c.historicalCounter + stamps.length
        last := newest stamps c.last }, stamps)
  | .see stamp, c => some (if later stamp c.last then { c with last := stamp } else c, [])
  | .current, c => some (c, [c.last])

/-! ## The vault -/

/-- A vault has an atomic update, or is read and written under a Web Lock. -/
inductive Mode where
  | atomic
  | locked

/-- The vault's values, of which the clock's is one. -/
abbrev Vault := List (Unit × StoredClock)

def Vault.stored (vault : Vault) : Option StoredClock := Assoc.get vault ()

/-- What an operation leaves: the vault and, unless its tab died, the tab's copy of the record and what it
answered. -/
abbrev Ran := Vault × Option (StoredClock × Option (List Stamp))

/-- One atomic update. -/
def atomically (issue : Issue) (op : Op) (state : StoredClock) (vault : Vault) (fate : Storage.Fate) : Ran :=
  let current := vault.stored
  let durable := (current.bind decode).getD state
  match op.change issue durable with
  | none => (vault, some (state, none))
  | some (changed, answer) =>
    let updated := if current.isSome && changed = durable then vault else Assoc.set vault () changed
    match fate with
    | .ok =>
      match updated.stored.bind decode with
      | some durable => (updated, some (durable, some answer))
      | none => (updated, some (state, none))
    | .err _ => (vault, some (state, none))
    | .dies took => (if took then updated else vault, none)

/-- The change, with the lock: written where there is one. -/
def lockedChange (issue : Issue) (op : Op) (state : StoredClock) :
    Storage.Filing Unit StoredClock (StoredClock × Option (List Stamp)) :=
  match op.change issue state with
  | none => .done (state, none)
  | some (changed, answer) =>
    if changed = state then .done (state, some answer)
    else .call (.put () changed) fun
      | .ok _ => .done (changed, some answer)
      | .error _ => .done (state, none)

/-- The operation with the lock: the record is read, or written again where it is gone, and then changed. -/
def locked (issue : Issue) (op : Op) (state : StoredClock) :
    Storage.Filing Unit StoredClock (StoredClock × Option (List Stamp)) :=
  .call (.get ()) fun
    | .error _ => .done (state, none)
    | .ok found =>
      match found.bind decode with
      | some durable => lockedChange issue op durable
      | none => .call (.put () state) fun
        | .ok _ => lockedChange issue op state
        | .error _ => .done (state, none)

def perform (mode : Mode) (issue : Issue) (op : Op) (state : StoredClock) (vault : Vault)
    (fates : List Storage.Fate) : Ran :=
  if !op.valid then (vault, some (state, none))
  else if op = .historical [] then (vault, some (state, some []))
  else
    match mode with
    | .atomic => atomically issue op state vault (fates.headD .ok)
    | .locked => Storage.run (Storage.scripted fates) (locked issue op state) vault

/-- The first read, which stores the seed where no record is there. -/
def openLocked (seeded : Option StoredClock) : Storage.Filing Unit StoredClock (Option StoredClock) :=
  .call (.get ()) fun
    | .error _ => .done none
    | .ok found =>
      match found.bind decode, seeded with
      | some durable, _ => .done (some durable)
      | none, none => .done none
      | none, some seeded => .call (.put () seeded) fun
        | .ok _ => .done (some seeded)
        | .error _ => .done none

def openAtomic (seeded : Option StoredClock) (vault : Vault) (fate : Storage.Fate) :
    Vault × Option (Option StoredClock) :=
  match vault.stored.bind decode, seeded with
  | none, none => (vault, some none)
  | found, seeded =>
    let updated := match found, seeded with
      | none, some seeded => Assoc.set vault () seeded
      | _, _ => vault
    match fate with
    | .ok => (updated, some (updated.stored.bind decode))
    | .err _ => (vault, some none)
    | .dies took => (if took then updated else vault, none)

/-- Opens the clock: the vault, and the tab's copy of the record unless it threw or died. -/
def openClockStore (mode : Mode) (seeded : Option StoredClock) (vault : Vault) (fates : List Storage.Fate) :
    Vault × Option (Option StoredClock) :=
  match mode with
  | .atomic => openAtomic seeded vault (fates.headD .ok)
  | .locked => Storage.run (Storage.scripted fates) (openLocked seeded) vault

/-! ## The browser -/

structure State where
  vault : Vault
  /-- Each instance's copy of the record; none of one whose tab died. -/
  instances : List (Option StoredClock)
  /-- The stamps that `issue` has returned. -/
  issued : List Stamp
  /-- The stamps that `historical` has returned. -/
  historical : List Stamp
  /-- The stamps that `see` was given, in calls that returned. -/
  seen : List Stamp

def init : State := ⟨[], [], [], [], []⟩

/-- An operation on one instance, or one more instance; how its calls of the vault end is given. -/
inductive Event where
  | opening (legacyDevice : Option String) (created : String) (legacyLast : Option Stamp)
    (fates : List Storage.Fate)
  | operation (i : ℕ) (op : Op) (fates : List Storage.Fate)

/-- What was returned is remembered. -/
def State.returned (s : State) (op : Op) (answer : List Stamp) : State :=
  match op with
  | .issue _ => { s with issued := s.issued ++ answer }
  | .historical _ => { s with historical := s.historical ++ answer }
  | .see stamp => { s with seen := s.seen ++ [stamp] }
  | .current => s

def step (mode : Mode) (issue : Issue) (s : State) : Event → State
  | .opening legacyDevice created legacyLast fates =>
    match openClockStore mode (seed legacyDevice created legacyLast) s.vault fates with
    | (vault, some (some state)) => { s with vault := vault, instances := s.instances ++ [some state] }
    | (vault, _) => { s with vault := vault }
  | .operation i op fates =>
    match s.instances[i]? with
    | some (some state) =>
      match perform mode issue op state s.vault fates with
      | (vault, none) => { s with vault := vault, instances := s.instances.set i none }
      | (vault, some (state, none)) => { s with vault := vault, instances := s.instances.set i (some state) }
      | (vault, some (state, some answer)) =>
        { s with vault := vault, instances := s.instances.set i (some state) }.returned op answer
    | _ => s

/-! ## Assumptions and conditions -/

/-- What den-core's `issue` is taken to answer, if it does: it throws where the stamp would not be of safe
integers. -/
def Issues (issue : Issue) : Prop :=
  ∀ last now device stamp, issue last now device = some stamp →
    stamp.2.2 = device ∧ later stamp last = true ∧ stamp.1 = max now last.1 ∧ validStamp stamp = true

/-- No past time for which a stamp is asked is one that an issued stamp has. -/
def Clear (s : State) : Event → Prop
  | .operation _ (.historical milliseconds) _ => ∀ at_ ∈ milliseconds, ∀ x ∈ s.issued, x.1 ≠ at_
  | _ => True

instance (s : State) (e : Event) : Decidable (Clear s e) := by
  rcases e with _ | ⟨_, _ | _ | _ | _, _⟩ <;> unfold Clear <;> infer_instance

end DenEdge.Clock
