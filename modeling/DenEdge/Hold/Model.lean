import DenEdge.Base.Assoc
import DenEdge.Base.Run

/-!
# Held reads

`Holds` keeps the requests that wait for a write: a place is taken under the keys it waits on, a write to a key
leaves a permit at each place under it, and a place that is dropped is gone from every key, as are those of an
owner that is cancelled. Over it, the two sides of a library's `/changes?wait=`: a reader takes a place, reads the
head, and waits where it is up to date; a batch hands its commit to a blocking task and, once it has the answer,
wakes the library's readers. A future may be dropped at any await; what was handed to a blocking task still runs
to its end.
-/

namespace DenEdge.Hold

/-! ## The places -/

structure Holds where
  maxTotal : ℕ
  maxPerOwner : ℕ
  /-- The places under each key, by their id. -/
  waiting : List (String × List ℕ)
  owners : List (String × ℕ)
  active : List (ℕ × String)
  total : ℕ
  next : ℕ
  stopping : Bool
  /-- The places that have a permit: a wait there ends at once, also one that has not begun. -/
  permits : List ℕ

namespace Holds

def new (maxTotal maxPerOwner : ℕ) : Holds := ⟨maxTotal, maxPerOwner, [], [], [], 0, 0, false, []⟩

variable (h : Holds)

/-- The places under a key. -/
def waitingOn (key : String) : List ℕ := (Assoc.get h.waiting key).getD []

def ownedBy (owner : String) : ℕ := (Assoc.get h.owners owner).getD 0

/-- A place charged to an owner, under keys; none where a cap is reached or the process is stopping. -/
def hold (owner : String) (keys : List String) : Option (ℕ × Holds) :=
  if h.stopping then none
  else if h.maxTotal ≤ h.total ∨ h.maxPerOwner ≤ h.ownedBy owner then none
  else
    some (h.next + 1, { h with
      total := h.total + 1
      owners := Assoc.set h.owners owner (h.ownedBy owner + 1)
      next := h.next + 1
      active := Assoc.set h.active (h.next + 1) owner
      waiting :=
        keys.foldl (fun w key => Assoc.set w key ((Assoc.get w key).getD [] ++ [h.next + 1])) h.waiting })

/-- A write to a key committed: each place under it gets a permit. -/
def wake (key : String) : Holds := { h with permits := h.permits ++ h.waitingOn key }

def releaseAll : Holds := { h with stopping := true }

/-- The places under a key without one of them; a key without places is gone. -/
def remove (id : ℕ) (waiting : List (String × List ℕ)) (key : String) : List (String × List ℕ) :=
  match Assoc.get waiting key with
  | none => waiting
  | some ids =>
    if ids.filter (· ≠ id) = [] then Assoc.erase waiting key else Assoc.set waiting key (ids.filter (· ≠ id))

/-- A place is given back. -/
def drop (id : ℕ) (owner : String) (keys : List String) : Holds :=
  match Assoc.get h.active id with
  | none => h
  | some _ =>
    { h with
      active := Assoc.erase h.active id
      total := h.total - 1
      owners :=
        match Assoc.get h.owners owner with
        | none => h.owners
        | some n => if n - 1 = 0 then Assoc.erase h.owners owner else Assoc.set h.owners owner (n - 1)
      waiting := keys.foldl (remove id) h.waiting
      permits := h.permits.filter (· ≠ id) }

/-- An owner's places are removed and woken. -/
def cancelOwner (owner : String) : Holds :=
  let ids := (h.active.filter (·.2 = owner)).map Prod.fst
  if ids = [] then h
  else
    { h with
      waiting := (h.waiting.map fun e => (e.1, e.2.filter (· ∉ ids))).filter (·.2 ≠ [])
      total := h.total - ids.length
      active := h.active.filter (·.1 ∉ ids)
      owners := Assoc.erase h.owners owner
      permits := h.permits ++ h.waiting.flatMap fun e => e.2.filter (· ∈ ids) }

end Holds

/-! ## Readers and batches -/

/-- The head and the generation of a library. -/
structure Protocol where
  head : ℕ
  generation : String
  deriving DecidableEq

inductive Reading where
  | arrived
  /-- It took a place, or was refused one, and will read the head. -/
  | registered
  | looked (protocol : Protocol)
  | waiting (head : ℕ)
  | done
  deriving DecidableEq

/-- A `/changes` request that may be held, and the generation the client read `since` in. -/
structure Reader where
  library : String
  since : ℕ
  generation : Option String
  place : Option ℕ
  phase : Reading
  deriving DecidableEq

inductive Batching where
  | preparing
  /-- The commit is the blocking task's. -/
  | handed
  /-- The commit is done, with so many rows applied; the request has not seen the answer. -/
  | committed (applied : ℕ)
  | done
  deriving DecidableEq

structure Batch where
  library : String
  phase : Batching
  /-- Is the request's future still there? -/
  running : Bool

/-- Places, libraries, and who reads and writes. -/
structure State where
  holds : Holds
  libraries : List (String × Protocol)
  readers : List Reader
  batches : List Batch

def init (maxTotal maxPerOwner : ℕ) : State := ⟨.new maxTotal maxPerOwner, [], [], []⟩

variable (s : State)

/-- The head of a library; nothing was committed to one that is not there. -/
def State.head (library : String) : ℕ := ((Assoc.get s.libraries library).map Protocol.head).getD 0

inductive Event where
  | arrive (library : String) (since : ℕ) (generation : Option String)
  | register (i : ℕ)
  | look (i : ℕ)
  /-- The reader has the protocol: it waits, or answers. -/
  | settle (i : ℕ)
  /-- A permit, the timeout or a stop ends the wait; the reader is let in again, or told that the server is busy.
  -/
  | endWait (i : ℕ) (admitted : Bool)
  | dropReader (i : ℕ)
  | batch (library : String)
  | hand (j : ℕ) (generation : String)
  | commit (j applied : ℕ)
  /-- The request goes on with what its commit answered. -/
  | resume (j : ℕ)
  | dropBatch (j : ℕ)
  | stop

def State.setReader (i : ℕ) (r : Reader) : State := { s with readers := s.readers.set i r }

def State.setBatch (j : ℕ) (b : Batch) : State := { s with batches := s.batches.set j b }

/-- A reader goes on without its place. -/
def State.release (i : ℕ) (r : Reader) (phase : Reading) : State :=
  { s with
    holds := r.place.elim s.holds fun id => s.holds.drop id r.library [r.library]
    readers := s.readers.set i { r with place := none, phase := phase } }

def register (i : ℕ) (r : Reader) : State :=
  match s.holds.hold r.library [r.library] with
  | none => s.setReader i { r with phase := .registered }
  | some (id, holds) => { s.setReader i { r with place := some id, phase := .registered } with holds := holds }

/-- Does a reader wait, that has read this? Only one that has a place and is exactly up to date. -/
def Reader.waits (r : Reader) (p : Protocol) : Bool :=
  r.place.isSome && p.head = r.since && r.generation.all (· = p.generation)

def step : Event → State
  | .arrive library since generation =>
    { s with readers := s.readers ++ [⟨library, since, generation, none, .arrived⟩] }
  | .register i =>
    match s.readers[i]? with
    | some r => if r.phase = .arrived then register s i r else s
    | none => s
  | .look i =>
    match s.readers[i]? with
    | some r =>
      if r.phase = .registered then
        match Assoc.get s.libraries r.library with
        | some p => s.setReader i { r with phase := .looked p }
        | none => s.release i r .done
      else s
    | none => s
  | .settle i =>
    match s.readers[i]? with
    | some r =>
      match r.phase with
      | .looked p => if r.waits p then s.setReader i { r with phase := .waiting p.head } else s.release i r .done
      | _ => s
    | none => s
  | .endWait i admitted =>
    match s.readers[i]? with
    | some r =>
      match r.phase with
      | .waiting _ => s.release i r (if admitted then .registered else .done)
      | _ => s
    | none => s
  | .dropReader i =>
    match s.readers[i]? with
    | some r => s.release i r .done
    | none => s
  | .batch library => { s with batches := s.batches ++ [⟨library, .preparing, true⟩] }
  | .hand j generation =>
    match s.batches[j]? with
    | some b =>
      if b.phase = .preparing ∧ b.running then
        { s.setBatch j { b with phase := .handed } with
          libraries :=
            match Assoc.get s.libraries b.library with
            | some _ => s.libraries
            | none => Assoc.set s.libraries b.library ⟨0, generation⟩ }
      else s
    | none => s
  | .commit j applied =>
    match s.batches[j]? with
    | some b =>
      if b.phase = .handed then
        { s.setBatch j { b with phase := .committed applied } with
          libraries :=
            match Assoc.get s.libraries b.library with
            | some p => Assoc.set s.libraries b.library { p with head := p.head + applied }
            | none => s.libraries }
      else s
    | none => s
  | .resume j =>
    match s.batches[j]? with
    | some b =>
      match b.phase with
      | .committed applied =>
        if b.running then
          { s.setBatch j { b with phase := .done } with
            holds := if 0 < applied then s.holds.wake b.library else s.holds }
        else s
      | _ => s
    | none => s
  | .dropBatch j =>
    match s.batches[j]? with
    | some b => s.setBatch j { b with running := false }
    | none => s
  | .stop => { s with holds := s.holds.releaseAll }

/-- The rows of a commit that is done. -/
def Batching.applied : Batching → ℕ
  | .committed n => n
  | _ => 0

/-- Rows were committed, and the request that committed them is still to wake the library. -/
def Batch.Wakes (b : Batch) (library : String) : Prop :=
  b.library = library ∧ b.running = true ∧ 0 < b.phase.applied

instance (b : Batch) (library : String) : Decidable (b.Wakes library) :=
  inferInstanceAs (Decidable (b.library = library ∧ b.running = true ∧ 0 < b.phase.applied))

def State.Wakes (library : String) : Prop := ∃ b ∈ s.batches, b.Wakes library

instance (s : State) (library : String) : Decidable (s.Wakes library) :=
  inferInstanceAs (Decidable (∃ b ∈ s.batches, b.Wakes library))

/-- A reader waits without a permit for a head that is past, and nobody will wake it. -/
def State.Missed : Prop :=
  ∃ r ∈ s.readers, ∃ head, r.phase = .waiting head ∧ (∀ id ∈ r.place, id ∉ s.holds.permits) ∧
    head < s.head r.library ∧ ¬ s.Wakes r.library

/-- The batch's commit may still add rows, or has added some that the library's readers were not woken for. -/
def Batch.owes (b : Batch) : Bool := b.phase = .handed || 0 < b.phase.applied

/-- No batch is dropped while it owes a wake. -/
def Stays : Event → Prop
  | .dropBatch j => ∀ b ∈ s.batches[j]?, b.owes = false
  | _ => True

instance (s : State) (e : Event) : Decidable (Stays s e) := by
  cases e <;> unfold Stays <;> infer_instance

end DenEdge.Hold
