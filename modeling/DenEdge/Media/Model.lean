import DenEdge.Base.Assoc
import DenEdge.Base.Run

/-!
# Admission to media

A request for a trailer is admitted by the address it comes from. A household member's address has a lease of its
own, opened once the member's claim was proved and taken by that claim alone; every other request shares the
address's guest lease, which holds one of a few slots until it has idled out. A member's proof may be replaced and
its library retired while claims are being proved: both invalidate the library's leases, and a generation counter
tells an admission that it may have been proved by an authority that is gone.

Each section under the leases' lock is one step, and so is each reading of the clock, the counter and the
authority between them; a request that is cancelled stops where it is, but a blocking write that it has started
runs on.
-/

namespace DenEdge.Media

def GUEST_MEDIA_STREAMS : ℕ := 3

def LEASE_IDLE_MS : ℕ := 30000

/-! ## Leases and slots -/

/-- A library and the proof of being its member. -/
structure Claim where
  library : String
  proof : String
  deriving DecidableEq

/-- A guest's slot; its permit is taken out when its lease ends. -/
structure Slot where
  permit : Bool
  /-- When a body last sent a frame. -/
  sent : ℕ

structure Lease where
  until_ : ℕ
  slot : Option ℕ
  /-- The claim that opened a member's lease. -/
  member : Option Claim

def saturatingAdd (a b : ℕ) : ℕ := min (a + b) (2 ^ 64 - 1)

/-- No request, and no frame of a body, for the idle time. -/
def Lease.isOver (slots : List Slot) (lease : Lease) (now : ℕ) : Bool :=
  lease.until_ ≤ now && match lease.slot.bind fun k => slots[k]? with
    | some slot => saturatingAdd slot.sent LEASE_IDLE_MS ≤ now
    | none => true

/-- The side of an address. -/
inductive Side where
  | member
  | guest
  deriving DecidableEq

abbrev Key := String × Side

/-! ## Requests -/

/-- Where an admission is. -/
inductive Phase where
  | asking
  /-- Nothing was open for it; it is to read the generation. -/
  | proving
  /-- The generation is read, and the claim is being proved. -/
  | loaded (generation : ℕ)
  /-- The claim was proved; the lease is to be published. -/
  | proved (generation : ℕ)
  /-- It is not a member's; it joins or opens the guest lease. -/
  | refused
  | spending
  | acquiring
  /-- It has a slot that is not published yet. -/
  | contending (slot : ℕ)
  | done
  deriving DecidableEq

structure Admission where
  claim : Option Claim
  bucket : String
  phase : Phase
  /-- The authorities there were since it started. -/
  during : List Claim
  /-- The claims that had been replaced when it started, by changes that had not invalidated yet. -/
  unanswered : List Claim
  /-- The claims whose replacement had been answered when it started. -/
  answered : List Claim
  /-- Its claim was refused. -/
  wasRefused : Bool
  deriving DecidableEq

/-- An admission that was answered yes, and the slot it was given. -/
structure Yes where
  admission : Admission
  slot : Option ℕ
  deriving DecidableEq

inductive Kind where
  | register (proof : String)
  | retire
  deriving DecidableEq

/-- Where a change of a library's authority is; of one that was written, the claim it replaced. -/
inductive Stage where
  | opened
  | spawned
  | written (replaced : Option Claim)
  | invalidated (replaced : Option Claim)
  | answered
  | failed
  deriving DecidableEq

structure Change where
  library : String
  kind : Kind
  stage : Stage
  cancelled : Bool

/-! ## The server -/

structure State where
  clock : ℕ
  /-- The member's proof of each household library. -/
  authority : List (String × String)
  /-- The libraries whose legacy proof was replaced. -/
  registered : List String
  leases : List (Key × Lease)
  generation : ℕ
  slots : List Slot
  /-- The permits that are left. -/
  available : ℕ
  admissions : List Admission
  changes : List Change
  yes : List Yes
  /-- The claims that were replaced since their library's leases were last invalidated. -/
  former : List Claim
  /-- The claims that were ever replaced. -/
  replaced : List Claim
  /-- The claims whose replacement was answered with success, by the request that made it. -/
  ended : List Claim

def start (authority : List (String × String)) (registered : List String) : State where
  clock := 0
  authority := authority
  registered := registered
  leases := []
  generation := 0
  slots := []
  available := GUEST_MEDIA_STREAMS
  admissions := []
  changes := []
  yes := []
  former := []
  replaced := []
  ended := []

namespace State

variable (s : State)

/-- A permit that a slot has goes back. -/
def release (k : ℕ) : State :=
  match s.slots[k]? with
  | some slot =>
    if slot.permit then
      { s with slots := s.slots.set k { slot with permit := false }, available := s.available + 1 }
    else s
  | none => s

/-- A lease is dropped: its slot's permit goes back. -/
def drop (lease : Lease) : State :=
  match lease.slot with
  | some k => s.release k
  | none => s

/-- The leases that pass stay, the others are dropped. -/
def retain (keep : Key × Lease → Bool) : State :=
  (s.leases.filter fun e => !keep e).foldl (fun s e => s.drop e.2) { s with leases := s.leases.filter keep }

def expire (now : ℕ) : State := s.retain fun e => !e.2.isOver s.slots now

def insert (key : Key) (lease : Lease) : State :=
  let s := match Assoc.get s.leases key with
    | some old => s.drop old
    | none => s
  { s with leases := Assoc.set s.leases key lease }

/-- A changed proof or a retired library leaves no lease of the library's members. -/
def invalidate (library : String) : State :=
  let s := { s with generation := s.generation + 1, former := s.former.filter (·.library ≠ library) }
  s.retain fun e => e.2.member.all (·.library ≠ library)

/-- The claims that are their library's member authority. -/
def current : List Claim :=
  (s.authority.filter fun a => Assoc.get s.authority a.1 = some a.2).map fun a => ⟨a.1, a.2⟩

/-- Is the claim the library's member authority? -/
def isHouseholdMember (claim : Option Claim) : Bool :=
  claim.any fun c => Assoc.get s.authority c.library = some c.proof

/-- The library's authority is changed; every admission that goes on has seen the new one. -/
def change (library : String) (proof : Option String) : State :=
  let old := (Assoc.get s.authority library).toList.map (Claim.mk library)
  { s with
    authority := match proof with
      | some proof => Assoc.set s.authority library proof
      | none => Assoc.erase s.authority library
    former := old ++ s.former
    replaced := old ++ s.replaced
    admissions := s.admissions.map fun a => { a with during := a.during ++ proof.toList.map (Claim.mk library) } }

def setAdmission (i : ℕ) (a : Admission) : State := { s with admissions := s.admissions.set i a }

def answer (i : ℕ) (a : Admission) (slot : Option ℕ) : State :=
  { s with admissions := s.admissions.set i { a with phase := .done }, yes := s.yes ++ [⟨a, slot⟩] }

def setChange (j : ℕ) (c : Change) : State := { s with changes := s.changes.set j c }

end State

/-! ## Steps of an admission -/

variable (s : State)

/-- The first section: the lease that this claim may take as it is. -/
def ask (i : ℕ) (a : Admission) (now : ℕ) : State :=
  let s := s.expire now
  let key : Key := (a.bucket, if a.claim.isNone then .guest else .member)
  match (Assoc.get s.leases key).filter fun lease => a.claim.isNone || lease.member = a.claim with
  | some lease =>
    { s with leases := Assoc.set s.leases key { lease with until_ := now + LEASE_IDLE_MS } }.answer i a lease.slot
  | none => s.setAdmission i { a with phase := .proving }

/-- A proved claim's lease is published, unless the authority may have changed since it was read. -/
def publish (i : ℕ) (a : Admission) (generation now : ℕ) : State :=
  if generation ≠ s.generation then s.setAdmission i { a with phase := .proving }
  else (s.insert (a.bucket, .member) ⟨now + LEASE_IDLE_MS, none, a.claim⟩).answer i a none

/-- The address's guest lease is joined, where there is one. -/
def join (i : ℕ) (a : Admission) (now : ℕ) : State ⊕ State :=
  let s := s.expire now
  match Assoc.get s.leases (a.bucket, .guest) with
  | some lease =>
    .inl ({ s with
      leases := Assoc.set s.leases (a.bucket, .guest) { lease with until_ := now + LEASE_IDLE_MS } }.answer
        i a lease.slot)
  | none => .inr s

def look (i : ℕ) (a : Admission) (now : ℕ) : State :=
  match join s i a now with
  | .inl s => s
  | .inr s => s.setAdmission i { a with phase := .spending }

/-- A slot is taken, where one is left. -/
def acquire (i : ℕ) (a : Admission) : State :=
  if s.available = 0 then s.setAdmission i { a with phase := .done }
  else
    { s with available := s.available - 1, slots := s.slots ++ [Slot.mk true 0] }.setAdmission i
      { a with phase := .contending s.slots.length }

/-- The guest lease is opened, or the one that was opened meanwhile is joined and the slot goes back. -/
def settle (i : ℕ) (a : Admission) (slot now : ℕ) : State :=
  match join s i a now with
  | .inl s => s.release slot
  | .inr s => (s.insert (a.bucket, .guest) ⟨now + LEASE_IDLE_MS, some slot, none⟩).answer i a (some slot)

/-! ## Steps of a change -/

/-- The store's own decision: a library's legacy proof is replaced once. -/
def register (library proof : String) : Option (State × Option Claim) :=
  match Assoc.get s.authority library with
  | none => none
  | some old =>
    if library ∈ s.registered then if old = proof then some (s, none) else none
    else
      let s := { s with registered := library :: s.registered }
      if old = proof then some (s, none) else some (s.change library (some proof), some (Claim.mk library old))

/-- The library's marker is written; where there is one, it is all a repeat looks at. -/
def retire (library : String) : Option (State × Claim) :=
  (Assoc.get s.authority library).map fun old => (s.change library none, ⟨library, old⟩)

def advance (j : ℕ) (c : Change) : State :=
  match c.kind, c.stage, c.cancelled with
  | .register _, .opened, false => (s.invalidate c.library).setChange j { c with stage := .spawned }
  | .register proof, .spawned, _ =>
    -- the blocking task runs on when its request is cancelled
    match register s c.library proof with
    | some (s, replaced) => s.setChange j { c with stage := .written replaced }
    | none => s.setChange j { c with stage := .failed }
  | .register _, .written replaced, _ =>
    (s.invalidate c.library).setChange j { c with stage := .invalidated replaced }
  | .retire, .opened, _ =>
    match retire s c.library with
    | some (s, replaced) => s.setChange j { c with stage := .written (some replaced) }
    | none => s.setChange j { c with stage := .answered }
  | .retire, .written replaced, false =>
    (s.invalidate c.library).setChange j { c with stage := .invalidated replaced }
  | _, .invalidated replaced, false =>
    { s with ended := s.ended ++ replaced.toList }.setChange j { c with stage := .answered }
  | _, _, _ => s

/-! ## The machine -/

inductive Event where
  | tick (ms : ℕ)
  | arrive (claim : Option Claim) (bucket : String)
  | ask (i now : ℕ)
  | load (i : ℕ)
  | verify (i : ℕ) (fails : Bool)
  | publish (i now : ℕ)
  | look (i now : ℕ)
  | spend (i : ℕ) (left : Bool)
  | acquire (i : ℕ)
  | settle (i now : ℕ)
  | frame (slot now : ℕ)
  | register (library proof : String)
  | retire (library : String)
  | advance (j : ℕ)
  | cancel (j : ℕ)

/-- An admission takes its next step, where it is there. -/
def admissionStep (i : ℕ) (a : Admission) : Event → State
  | .ask _ now => if a.phase = .asking ∧ now ≤ s.clock then ask s i a now else s
  | .load _ => if a.phase = .proving then s.setAdmission i { a with phase := .loaded s.generation } else s
  | .verify _ fails =>
    match a.phase with
    | .loaded generation =>
      if !fails && s.isHouseholdMember a.claim then s.setAdmission i { a with phase := .proved generation }
      else s.setAdmission i { a with phase := .refused, wasRefused := true }
    | _ => s
  | .publish _ now =>
    match a.phase with
    | .proved generation => if now ≤ s.clock then publish s i a generation now else s
    | _ => s
  | .look _ now => if a.phase = .refused ∧ now ≤ s.clock then look s i a now else s
  | .spend _ left =>
    if a.phase = .spending then s.setAdmission i { a with phase := if left then .acquiring else .done } else s
  | .acquire _ => if a.phase = .acquiring then acquire s i a else s
  | .settle _ now =>
    match a.phase with
    | .contending slot => if now ≤ s.clock then settle s i a slot now else s
    | _ => s
  | _ => s

def Event.admission : Event → Option ℕ
  | .ask i _ | .load i | .verify i _ | .publish i _ | .look i _ | .spend i _ | .acquire i | .settle i _ => some i
  | _ => none

def step (e : Event) : State :=
  match e with
  | .tick ms => { s with clock := s.clock + ms }
  | .arrive claim bucket =>
    { s with admissions := s.admissions ++
      [⟨claim, bucket, .asking, s.current, s.former, s.ended, false⟩] }
  | .frame slot now =>
    match s.slots[slot]? with
    | some kept => if now ≤ s.clock then { s with slots := s.slots.set slot { kept with sent := now } } else s
    | none => s
  | .register library proof => { s with changes := s.changes ++ [⟨library, .register proof, .opened, false⟩] }
  | .retire library => { s with changes := s.changes ++ [⟨library, .retire, .opened, false⟩] }
  | .advance j =>
    match s.changes[j]? with
    | some c => advance s j c
    | none => s
  | .cancel j =>
    match s.changes[j]? with
    | some c => s.setChange j { c with cancelled := true }
    | none => s
  | e =>
    match e.admission.bind fun i => (s.admissions[i]?).map fun a => (i, a) with
    | some (i, a) => admissionStep s i a e
    | none => s

end DenEdge.Media
