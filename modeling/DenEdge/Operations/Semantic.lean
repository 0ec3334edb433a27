import DenEdge.Base.Run

/-!
# Calls that are sent again

The supervisor keeps one client of the library's Worker active. A client that fails is disposed of, and a
connection replaces it, which may make several clients before one is ready or it gives up. A semantic call that
lost its client waits for that connection and is sent again, to the client that is active then: under its
operation id, so that the journal answers it if it was performed.

A synchronous turn of the supervisor is one step. Of subscriptions there is only that a connection has been
answered what it awaits; listeners are left out. Clients are told apart by their tokens.
-/

namespace DenEdge.Operations.Semantic

/-! ## Data -/

inductive Code where
  | updateRequired
  | cancelled
  | unavailable
  deriving DecidableEq

structure Failure where
  code : Code
  retryable : Bool
  requiredWire : Option ℕ

/-- What a client that was closed, or replaced, fails with. -/
def cancelled : Failure := ⟨.cancelled, false, none⟩

structure Options where
  libraryKey : String
  online : Bool
  wire : ℕ
  bootstrapProfileHousehold : Bool
  deriving DecidableEq

inductive Phase where
  | idle
  | connecting
  | ready
  | reconnecting
  | failed
  | closed
  deriving DecidableEq

/-- Where a call of `#connectWithRetry` is. -/
inductive Connection where
  /-- In `#connectOnce`, with this client. -/
  | opening (token : ℕ)
  /-- In its `catch`, where it awaits whether the household is bootstrapped. -/
  | failing (failure : Failure) (bootstrapped : Bool)
  | settled (isOk : Bool)

inductive Waiting where
  /-- For a client's answer. -/
  | sent (token : ℕ)
  | reconnecting (connection : ℕ)
  | settled
  deriving DecidableEq

/-- A call, the clients it was sent to, the latest first, and how often its promise was settled. -/
structure Call where
  waiting : Waiting
  sends : List ℕ
  settlements : ℕ

structure State where
  phase : Phase
  active : Option ℕ
  /-- What the active client reported while it was opened. -/
  activeFailure : Option Failure
  disposed : List ℕ
  nextToken : ℕ
  openOptions : Option Options
  automaticRestartsLeft : ℕ
  /-- `#connecting`, as the connection whose promise it is. -/
  connecting : Option ℕ
  connections : List Connection
  /-- The callback of a bootstrap that a status began is queued. -/
  booting : Bool
  calls : List Call

structure Config where
  maxAutomaticRestarts : ℕ
  knownProfileHousehold : String → Bool

variable (config : Config)

def start : State where
  phase := .idle
  active := none
  activeFailure := none
  disposed := []
  nextToken := 0
  openOptions := none
  automaticRestartsLeft := config.maxAutomaticRestarts
  connecting := none
  connections := []
  booting := false
  calls := []

/-! ## Clients and connections -/

def Connection.isFailing : Connection → Bool
  | .failing .. => true
  | _ => false

def toWire5 (options : Options) : Options := { options with wire := 5, bootstrapProfileHousehold := false }

def Options.canBootstrap (options : Options) : Bool :=
  options.online && options.wire = 4 && options.bootstrapProfileHousehold

namespace State

def disposeActive (s : State) : State :=
  { s with active := none, disposed := s.active.toList ++ s.disposed }

def setFailed (s : State) : State :=
  if s.phase = .closed then s else { s with phase := .failed }.disposeActive

def setConnection (s : State) (p : ℕ) (connection : Connection) : State :=
  { s with connections := s.connections.set p connection }

/-- The first turn of `#connectOnce`. -/
def createClient (s : State) : State :=
  { s with nextToken := s.nextToken + 1, active := some (s.nextToken + 1), activeFailure := none }

def canBootstrapProfileHousehold (s : State) (failure : Failure) : Bool :=
  failure.code = .updateRequired && !failure.retryable && failure.requiredWire = some 5 &&
    s.openOptions.any Options.canBootstrap

def bootstrapProfileHousehold (s : State) : State :=
  { s with openOptions := s.openOptions.map toWire5, automaticRestartsLeft := config.maxAutomaticRestarts }

def openKnownProfileHousehold (s : State) : State :=
  { s with
    openOptions := s.openOptions.map fun options =>
      if options.canBootstrap && config.knownProfileHousehold options.libraryKey then toWire5 options
      else options }

/-- The active client is not disposed of here: whoever begins a connection has done so. -/
def beginConnection (s : State) (reconnecting : Bool) : State :=
  let s := { s with phase := if reconnecting then .reconnecting else .connecting }
  let s := (s.openKnownProfileHousehold config).createClient
  { s with connections := s.connections ++ [.opening s.nextToken], connecting := some s.connections.length }

def connectOnce (s : State) (p : ℕ) : State :=
  let s := s.createClient
  s.setConnection p (.opening s.nextToken)

/-- The `catch` of `#connectWithRetry`, up to its await. It disposes of whichever client is active. -/
def fail (s : State) (p : ℕ) (failure : Failure) : State :=
  let s := s.disposeActive
  if s.phase = .closed then s.setConnection p (.settled false)
  else if s.canBootstrapProfileHousehold failure then
    (s.bootstrapProfileHousehold config).setConnection p (.failing failure true)
  else s.setConnection p (.failing failure false)

/-- The `catch` from its await on. That the supervisor was closed meanwhile is not looked at. -/
def goOn (s : State) (p : ℕ) (failure : Failure) (bootstrapped : Bool) : State :=
  if bootstrapped then s.connectOnce p
  else if !failure.retryable || s.automaticRestartsLeft = 0 then s.setFailed.setConnection p (.settled false)
  else { s with automaticRestartsLeft := s.automaticRestartsLeft - 1, phase := .reconnecting }.connectOnce p

/-- Promises that have settled are waited for: no message is taken before their callbacks have run. -/
def isBusy (s : State) : Bool := s.booting || s.connections.any Connection.isFailing

end State

/-! ## Callers -/

def sameOpenOptions (left right : Options) : Bool := left = right

def openLibrary (s : State) (options : Options) : State :=
  if s.phase = .closed || s.openOptions.any fun known => !sameOpenOptions known options then s
  else
    let s := { s with openOptions := some options }
    if s.phase = .ready || s.connecting.isSome || s.phase = .failed then s
    else s.beginConnection config (s.phase ≠ .idle)

def retry (s : State) : State :=
  if s.phase = .closed || s.openOptions.isNone || s.phase = .ready || s.connecting.isSome then s
  else { s with automaticRestartsLeft := config.maxAutomaticRestarts }.beginConnection config true

def recoverSharedTransport (s : State) : State :=
  if s.phase ≠ .ready || s.openOptions.isNone || s.connecting.isSome || s.active.isNone then s
  else if s.automaticRestartsLeft = 0 then s.setFailed
  else { s with automaticRestartsLeft := s.automaticRestartsLeft - 1 }.disposeActive.beginConnection config true

def close (s : State) : State := if s.phase = .closed then s else { s with phase := .closed }.disposeActive

/-! ## Clients' messages -/

/-- A client reports that it has failed. A connection that is being made finds it out itself. -/
def receiveFailed (s : State) (token : ℕ) (failure : Failure) : State :=
  if s.active ≠ some token then s
  else if s.phase = .connecting || s.phase = .reconnecting then { s with activeFailure := some failure }
  else
    let s := s.disposeActive
    if s.canBootstrapProfileHousehold failure then
      { s.bootstrapProfileHousehold config with phase := .reconnecting, booting := true }
    else if !failure.retryable || s.automaticRestartsLeft = 0 then s.setFailed
    else { s with automaticRestartsLeft := s.automaticRestartsLeft - 1 }.beginConnection config true

/-- The callback of that bootstrap. -/
def booted (s : State) : State :=
  let t := { s with booting := false }
  if !s.booting || s.phase = .closed then t else t.beginConnection config true

/-- A connection's client has answered all that the connection awaits. -/
def answered (s : State) (p token : ℕ) : State :=
  if s.active = some token && s.activeFailure.isNone then
    { s with phase := .ready, automaticRestartsLeft := config.maxAutomaticRestarts }.setConnection p
      (.settled true)
  else s.fail config p (if s.active = some token then s.activeFailure.getD cancelled else cancelled)

/-- A connection's client has refused. One that was closed has done so as cancelled, before any other message. -/
def refused (s : State) (p token : ℕ) (failure : Failure) : State :=
  if token ∈ s.disposed then s.fail config p cancelled
  else if s.isBusy then s
  else s.fail config p failure

/-! ## Calls -/

def settle (call : Call) : Call := { call with waiting := .settled, settlements := call.settlements + 1 }

/-- A turn of the loop of `#semantic`: the call is sent to the ready client, or rejected. -/
def send (s : State) (call : Call) : Call :=
  match s.phase, s.active with
  | .ready, some token => { call with waiting := .sent token, sends := token :: call.sends }
  | _, _ => settle call

/-- A client's answer to a call: a result (`none`), or a failure that is retryable or not. -/
def answerCall (s : State) (call : Call) (token : ℕ) (retryable : Option Bool) : Call :=
  if retryable ≠ some true || s.phase = .closed || (s.active = some token && s.phase = .ready) then settle call
  else
    match s.connecting with
    | some p => { call with waiting := .reconnecting p }
    | none => settle call

/-- The call goes on once the connection that it waits for has settled. -/
def resumeCall (s : State) (call : Call) (p : ℕ) : Call :=
  match s.connections[p]? with
  | some (.settled true) => send s call
  | some (.settled false) => settle call
  | _ => call

def editCall (s : State) (i : ℕ) (edit : Call → Call) : State := { s with calls := s.calls.modify i edit }

/-! ## The machine -/

inductive Event where
  | openLibrary (options : Options)
  | retry
  | recoverSharedTransport
  | close
  | failed (token : ℕ) (failure : Failure)
  | booted
  | answered (p : ℕ)
  | refused (p : ℕ) (failure : Failure)
  /-- The await in a connection's `catch` is over. -/
  | goOn (p : ℕ)
  /-- `#connecting` is forgotten, after it has settled. -/
  | cleared
  | call
  | answerCall (i : ℕ) (retryable : Option Bool)
  | resumeCall (i : ℕ)

def step (s : State) : Event → State
  | .openLibrary options => openLibrary config s options
  | .retry => retry config s
  | .recoverSharedTransport => recoverSharedTransport config s
  | .close => close s
  | .failed token failure => if s.isBusy then s else receiveFailed config s token failure
  | .booted => booted config s
  | .answered p =>
    match s.connections[p]? with
    | some (.opening token) => if s.isBusy then s else answered config s p token
    | _ => s
  | .refused p failure =>
    match s.connections[p]? with
    | some (.opening token) => refused config s p token failure
    | _ => s
  | .goOn p =>
    match s.connections[p]? with
    | some (.failing failure bootstrapped) => s.goOn p failure bootstrapped
    | _ => s
  | .cleared =>
    match s.connecting.bind fun p => s.connections[p]? with
    | some (.settled _) => { s with connecting := none }
    | _ => s
  | .call => { s with calls := s.calls ++ [send s ⟨.settled, [], 0⟩] }
  | .answerCall i retryable => editCall s i fun call =>
    match call.waiting with
    | .sent token => answerCall s call token retryable
    | _ => call
  | .resumeCall i => editCall s i fun call =>
    match call.waiting with
    | .reconnecting p => resumeCall s call p
    | _ => call

/-! ## A client that serves is disposed of before another takes its place -/

def Serving (s : State) (token : ℕ) : Prop := s.phase = .ready ∧ s.active = some token

/-- A turn that leaves the calls alone. -/
structure Turns (s s' : State) : Prop where
  serving : ∀ token, Serving s token → Serving s' token ∨ token ∈ s'.disposed
  disposed : s.disposed ⊆ s'.disposed
  calls : s'.calls = s.calls

namespace Turns

variable {s s' : State}

theorem of_disposed (hdisposed : s'.disposed = s.disposeActive.disposed) (hcalls : s'.calls = s.calls) :
    Turns s s' where
  serving token h := .inr (by simp [hdisposed, State.disposeActive, h.2])
  disposed := by rw [hdisposed]; exact List.subset_append_right _ _
  calls := hcalls

theorem of_idle (hidle : s.phase = .ready → s.active = none) (hdisposed : s'.disposed = s.disposed)
    (hcalls : s'.calls = s.calls) : Turns s s' where
  serving token h := by
    have hnone := hidle h.1
    rw [h.2] at hnone
    cases hnone
  disposed := by rw [hdisposed]; exact List.Subset.refl _
  calls := hcalls

theorem of_same (hphase : s.phase = .ready → s'.phase = .ready) (hactive : s'.active = s.active)
    (hdisposed : s'.disposed = s.disposed) (hcalls : s'.calls = s.calls) : Turns s s' where
  serving _ h := .inl ⟨hphase h.1, hactive.trans h.2⟩
  disposed := by rw [hdisposed]; exact List.Subset.refl _
  calls := hcalls

end Turns

/-- A failed connection that will make another client. -/
def Hopeful : Connection → Prop
  | .failing failure bootstrapped => bootstrapped = true ∨ failure.retryable = true
  | _ => False

/-- While the supervisor is ready, at most one failed connection will make a client, and none while there is an
active one. -/
structure Calm (s : State) : Prop where
  booting : s.phase = .ready → s.booting = false
  unique : s.phase = .ready → ∀ (p q : ℕ) (c d : Connection), s.connections[p]? = some c →
    s.connections[q]? = some d → Hopeful c → Hopeful d → p = q
  hopeless : s.phase = .ready → s.active ≠ none → ∀ c ∈ s.connections, ¬ Hopeful c

theorem Calm.of_phase {s : State} (h : s.phase ≠ .ready) : Calm s :=
  ⟨fun hready => absurd hready h, fun hready => absurd hready h, fun hready => absurd hready h⟩

theorem not_hopeful_of_not_busy {s : State} (hbusy : s.isBusy = false) {c : Connection} (hc : c ∈ s.connections) :
    ¬ Hopeful c := by
  simp only [State.isBusy, Bool.or_eq_false_iff, List.any_eq_false] at hbusy
  have hfailing := hbusy.2 c hc
  cases c with
  | failing => exact absurd rfl hfailing
  | opening => exact id
  | settled => exact id

/-- What every turn that leaves the calls alone does. -/
structure Passes (s s' : State) : Prop where
  turns : Turns s s'
  calm : Calm s'

section

variable {config} {s : State}

theorem beginConnection_phase (s : State) (reconnecting : Bool) :
    (s.beginConnection config reconnecting).phase ≠ .ready := by
  cases reconnecting <;> exact nofun

section

variable (hcalm : Calm s)
include hcalm

theorem Passes.same : Passes s s := ⟨.of_same id rfl rfl rfl, hcalm⟩

theorem passes_setFailed : Passes s s.setFailed := by
  unfold State.setFailed
  split
  · exact .same hcalm
  · exact ⟨.of_disposed rfl rfl, .of_phase nofun⟩

theorem passes_openLibrary (options : Options) : Passes s (openLibrary config s options) := by
  unfold openLibrary
  split
  · exact .same hcalm
  · dsimp only
    split
    · exact ⟨.of_same id rfl rfl rfl, { hcalm with }⟩
    · next hphase =>
      have hidle : s.phase = .ready → s.active = none := fun hready => absurd (by simp [hready]) hphase
      exact ⟨.of_idle hidle rfl rfl, .of_phase (beginConnection_phase _ _)⟩

theorem passes_retry : Passes s (retry config s) := by
  unfold retry
  split
  · exact .same hcalm
  · next hphase =>
    have hidle : s.phase = .ready → s.active = none := fun hready => absurd (by simp [hready]) hphase
    exact ⟨.of_idle hidle rfl rfl, .of_phase (beginConnection_phase _ _)⟩

theorem passes_recoverSharedTransport : Passes s (recoverSharedTransport config s) := by
  unfold recoverSharedTransport
  split
  · exact .same hcalm
  · split
    · exact passes_setFailed hcalm
    · exact ⟨.of_disposed rfl rfl, .of_phase (beginConnection_phase _ _)⟩

theorem passes_close : Passes s (close s) := by
  unfold close
  split
  · exact .same hcalm
  · exact ⟨.of_disposed rfl rfl, .of_phase nofun⟩

theorem passes_receiveFailed (token : ℕ) (failure : Failure) :
    Passes s (receiveFailed config s token failure) := by
  unfold receiveFailed
  split
  · exact .same hcalm
  · split
    · exact ⟨.of_same id rfl rfl rfl, { hcalm with }⟩
    · dsimp only
      split
      · exact ⟨.of_disposed rfl rfl, .of_phase nofun⟩
      · split
        · unfold State.setFailed
          split
          · next hclosed => exact ⟨.of_disposed rfl rfl, .of_phase (by rw [hclosed]; exact nofun)⟩
          · exact ⟨.of_disposed rfl rfl, .of_phase nofun⟩
        · exact ⟨.of_disposed rfl rfl, .of_phase (beginConnection_phase _ _)⟩

theorem passes_booted : Passes s (booted config s) := by
  unfold booted
  split
  · exact ⟨.of_same id rfl rfl rfl, { hcalm with booting := fun _ => rfl }⟩
  · next hbooting =>
    have hidle : s.phase = .ready → s.active = none := by
      intro hready
      exact absurd (by simp [hcalm.booting hready]) hbooting
    exact ⟨.of_idle hidle rfl rfl, .of_phase (beginConnection_phase _ _)⟩

/-- A connection fails while no other does, or without hope. -/
theorem passes_fail (p : ℕ) {failure : Failure} (h : s.isBusy = false ∨ failure = cancelled) :
    Passes s (s.fail config p failure) := by
  have hset : ∀ c, (s.isBusy = false ∨ ¬ Hopeful c) → s.phase = .ready → ∀ (q r : ℕ) (d e : Connection),
      (s.connections.set p c)[q]? = some d →
      (s.connections.set p c)[r]? = some e → Hopeful d → Hopeful e → q = r := by
    intro c hc hready q r d e hq hr hd he
    rcases hc with hbusy | hc
    · have hnone : ∀ {q : ℕ} {d : Connection}, s.connections[q]? = some d → ¬ Hopeful d := fun hq =>
        not_hopeful_of_not_busy hbusy (List.mem_of_getElem? hq)
      grind
    · have hunique := hcalm.unique hready q r d e
      grind
  unfold State.fail
  dsimp only
  split
  · next hclosed =>
    exact ⟨.of_disposed rfl rfl, .of_phase (by show s.phase ≠ _; rw [show s.phase = _ from hclosed]; exact nofun)⟩
  · split
    · next hboot =>
      have hbusy : s.isBusy = false :=
        h.resolve_right (by rintro rfl; simp [State.canBootstrapProfileHousehold, cancelled] at hboot)
      exact ⟨.of_disposed rfl rfl, ⟨hcalm.booting, hset _ (.inl hbusy), fun _ hactive => absurd rfl hactive⟩⟩
    · have hhope : s.isBusy = false ∨ ¬ Hopeful (.failing failure false) :=
        h.imp_right (by rintro rfl; simp [Hopeful, cancelled])
      exact ⟨.of_disposed rfl rfl, ⟨hcalm.booting, hset _ hhope, fun _ hactive => absurd rfl hactive⟩⟩

theorem passes_answered (hbusy : s.isBusy = false) (p token : ℕ) : Passes s (answered config s p token) := by
  unfold answered
  split
  · have hnone : ∀ c ∈ s.connections.set p (.settled true), ¬ Hopeful c := by
      intro c hc
      rcases List.mem_or_eq_of_mem_set hc with hc | rfl
      · exact not_hopeful_of_not_busy hbusy hc
      · exact id
    have hbooting : s.booting = false := by
      simp only [State.isBusy, Bool.or_eq_false_iff] at hbusy
      exact hbusy.1
    exact ⟨.of_same (fun _ => rfl) rfl rfl rfl, ⟨fun _ => hbooting,
      fun _ q r d e hq _ hd _ => absurd hd (hnone d (List.mem_of_getElem? hq)), fun _ _ => hnone⟩⟩
  · exact passes_fail hcalm p (.inl hbusy)

theorem passes_refused (p token : ℕ) (failure : Failure) : Passes s (refused config s p token failure) := by
  unfold refused
  split
  · exact passes_fail hcalm p (.inr rfl)
  · split
    · exact .same hcalm
    · next hbusy => exact passes_fail hcalm p (.inl (by simpa using hbusy))

theorem passes_goOn {p : ℕ} {failure : Failure} {bootstrapped : Bool}
    (hp : s.connections[p]? = some (.failing failure bootstrapped)) :
    Passes s (s.goOn p failure bootstrapped) := by
  have hidle : Hopeful (.failing failure bootstrapped) → s.phase = .ready → s.active = none := by
    intro hope hready
    by_contra hactive
    exact hcalm.hopeless hready hactive _ (List.mem_of_getElem? hp) hope
  unfold State.goOn
  split
  · next hboot =>
    -- it was the only one with hope, and is opening now
    have hnone : s.phase = .ready → ∀ c ∈ s.connections.set p (.opening (s.nextToken + 1)), ¬ Hopeful c := by
      intro hready c hc hope
      obtain ⟨q, hq⟩ := List.mem_iff_getElem?.mp hc
      have hunique := fun h => hcalm.unique hready q p c _ h hp hope (.inl hboot)
      have hopening : ¬ Hopeful (.opening (s.nextToken + 1)) := id
      grind
    exact ⟨.of_idle (hidle (.inl hboot)) rfl rfl, ⟨hcalm.booting,
      fun hready q r d e hq _ hd _ => absurd hd (hnone hready d (List.mem_of_getElem? hq)), fun hready _ =>
        hnone hready⟩⟩
  · split
    · obtain ⟨hturns, -⟩ := passes_setFailed hcalm
      refine ⟨{ hturns with }, .of_phase ?_⟩
      show s.setFailed.phase ≠ _
      unfold State.setFailed
      split
      · next hclosed => rw [hclosed]; exact nofun
      · exact nofun
    · next hretry =>
      have hope : Hopeful (.failing failure bootstrapped) := .inr (by simp at hretry; exact hretry.1)
      exact ⟨.of_idle (hidle hope) rfl rfl, .of_phase nofun⟩

end

/-! ## What is known of a call -/

structure CallOK (s : State) (call : Call) : Prop where
  sends : ∀ token ∈ call.sends, Serving s token ∨ token ∈ s.disposed
  earlier : call.sends.tail ⊆ s.disposed
  sent : ∀ token, call.waiting = .sent token → call.sends.head? = some token
  reconnecting : ∀ p, call.waiting = .reconnecting p → call.sends ⊆ s.disposed
  settlements : call.settlements = if call.waiting = .settled then 1 else 0

namespace CallOK

variable {s' : State} {call : Call}

theorem turns (hturns : Turns s s') (h : CallOK s call) : CallOK s' call where
  sends token htoken := (h.sends token htoken).elim (hturns.serving token) fun hd => .inr (hturns.disposed hd)
  earlier := List.Subset.trans h.earlier hturns.disposed
  sent := h.sent
  reconnecting p hp := List.Subset.trans (h.reconnecting p hp) hturns.disposed
  settlements := h.settlements

theorem settle (h : CallOK s call) (hwaiting : call.waiting ≠ .settled) : CallOK s (settle call) where
  sends := h.sends
  earlier := h.earlier
  sent := nofun
  reconnecting := nofun
  settlements := by simp [Semantic.settle, h.settlements, hwaiting]

/-- A call is sent when the clients that it was sent to are disposed of. -/
theorem send (hsends : call.sends ⊆ s.disposed) (hsettlements : call.settlements = 0) :
    CallOK s (send s call) := by
  unfold Semantic.send
  split
  · next token hphase hactive =>
    refine ⟨?_, hsends, ?_, nofun, by simpa using hsettlements⟩
    · exact List.forall_mem_cons.mpr ⟨.inl ⟨hphase, hactive⟩, fun t ht => .inr (hsends ht)⟩
    · intro t ht
      cases ht
      rfl
  · exact ⟨fun t ht => .inr (hsends ht), List.Subset.trans (List.tail_subset _) hsends, nofun, nofun,
      by simp [Semantic.settle, hsettlements]⟩

theorem answerCall (h : CallOK s call) {token : ℕ} (hsent : call.waiting = .sent token)
    (retryable : Option Bool) : CallOK s (answerCall s call token retryable) := by
  have hwaiting : call.waiting ≠ .settled := by rw [hsent]; exact nofun
  unfold Semantic.answerCall
  split
  · exact h.settle hwaiting
  · next hlost =>
    split
    · next p hconnecting =>
      -- its client serves no more, so it was disposed of
      have hgone : ¬ Serving s token := fun hserving => absurd (by simp [hserving.1, hserving.2]) hlost
      have hall : call.sends ⊆ s.disposed := by
        have hhead := h.sent token hsent
        have hearlier := h.earlier
        have hsends := h.sends
        cases hlist : call.sends with
        | nil => exact List.nil_subset _
        | cons =>
          rw [hlist] at hhead hearlier hsends
          cases hhead
          exact List.cons_subset.mpr ⟨(hsends token List.mem_cons_self).resolve_left hgone, hearlier⟩
      exact ⟨h.sends, h.earlier, nofun, fun _ _ => hall, by simpa [hwaiting] using h.settlements⟩
    · exact h.settle hwaiting

theorem resumeCall (h : CallOK s call) {p : ℕ} (hwaits : call.waiting = .reconnecting p) :
    CallOK s (resumeCall s call p) := by
  have hwaiting : call.waiting ≠ .settled := by rw [hwaits]; exact nofun
  unfold Semantic.resumeCall
  split
  · exact .send (h.reconnecting p hwaits) (by simpa [hwaiting] using h.settlements)
  · exact h.settle hwaiting
  · exact h

end CallOK

/-- An event that changes nothing but calls. -/
def Event.isCall : Event → Bool
  | .call | .answerCall .. | .resumeCall .. => true
  | _ => false

theorem passes_step (hcalm : Calm s) {e : Event} (he : e.isCall = false) : Passes s (step config s e) := by
  have hsame := Passes.same hcalm
  cases e with simp only [step]
  | openLibrary options => exact passes_openLibrary hcalm options
  | retry => exact passes_retry hcalm
  | recoverSharedTransport => exact passes_recoverSharedTransport hcalm
  | close => exact passes_close hcalm
  | failed token failure =>
    split
    · exact hsame
    · exact passes_receiveFailed hcalm token failure
  | booted => exact passes_booted hcalm
  | answered p =>
    split
    · split
      · exact hsame
      · next hbusy => exact passes_answered hcalm (by simpa using hbusy) p _
    · exact hsame
  | refused p failure =>
    split
    · exact passes_refused hcalm p _ failure
    · exact hsame
  | goOn p =>
    split
    · next hp => exact passes_goOn hcalm hp
    · exact hsame
  | cleared =>
    split
    · exact ⟨.of_same id rfl rfl rfl, { hcalm with }⟩
    · exact hsame
  | call => cases he
  | answerCall => cases he
  | resumeCall i => cases he

/-! ## Runs -/

structure Inv (s : State) : Prop where
  calm : Calm s
  calls : ∀ call ∈ s.calls, CallOK s call

theorem inv_start : Inv (start config) := ⟨.of_phase nofun, nofun⟩

/-- A step that edits a call keeps what is known of all. -/
theorem Inv.editCall (h : Inv s) (i : ℕ) {edit : Call → Call}
    (hedit : ∀ call, CallOK s call → CallOK s (edit call)) : Inv (editCall s i edit) := by
  refine ⟨{ h.calm with }, ?_⟩
  intro call hcall
  have hok : CallOK s call := by
    obtain ⟨j, hj⟩ := List.mem_iff_getElem?.mp hcall
    simp only [Semantic.editCall, List.getElem?_modify, Option.map_eq_map, Option.map_eq_some_iff] at hj
    obtain ⟨old, hold, rfl⟩ := hj
    have hknown := h.calls old (List.mem_of_getElem? hold)
    split
    · exact hedit old hknown
    · exact hknown
  exact { hok with }

theorem Inv.step (h : Inv s) (e : Event) : Inv (step config s e) := by
  by_cases he : e.isCall = false
  · have hpasses : Passes s (Semantic.step config s e) := passes_step h.calm he
    obtain ⟨hturns, hcalm⟩ := hpasses
    refine ⟨hcalm, fun call hcall => ?_⟩
    rw [hturns.calls] at hcall
    exact (h.calls call hcall).turns hturns
  · cases e with
    | call =>
      refine ⟨{ h.calm with }, fun call hcall => ?_⟩
      have hok : CallOK s call :=
        List.forall_mem_append.mpr ⟨h.calls,
          List.forall_mem_singleton.mpr (.send (List.nil_subset _) rfl)⟩ call hcall
      exact { hok with }
    | answerCall i retryable =>
      refine h.editCall i fun call hok => ?_
      split
      · next hsent => exact hok.answerCall hsent retryable
      · exact hok
    | resumeCall i =>
      refine h.editCall i fun call hok => ?_
      split
      · next hwaits => exact hok.resumeCall hwaits
      · exact hok
    | _ => exact absurd rfl he

theorem send_sends (s : State) (call : Call) :
    (send s call).sends = call.sends ∨ ∃ token, (send s call).sends = token :: call.sends := by
  unfold send
  split
  · exact .inr ⟨_, rfl⟩
  · exact .inl rfl

theorem answerCall_sends (s : State) (call : Call) (token : ℕ) (retryable : Option Bool) :
    (answerCall s call token retryable).sends = call.sends := by
  unfold answerCall
  split
  · rfl
  · split <;> rfl

/-- A step that sends a call again finds the clients that it was sent to disposed of. -/
theorem Inv.sends (h : Inv s) (e : Event) {i : ℕ} {call call' : Call} (hcall : s.calls[i]? = some call)
    (hcall' : (Semantic.step config s e).calls[i]? = some call') :
    call'.sends = call.sends ∨ (∃ token, call'.sends = token :: call.sends) ∧ call.sends ⊆ s.disposed := by
  by_cases he : e.isCall = false
  · rw [(passes_step h.calm he).turns.calls, hcall] at hcall'
    cases hcall'
    exact .inl rfl
  · cases e with
    | call =>
      have hlt := (List.getElem?_eq_some_iff.mp hcall).1
      simp only [Semantic.step, List.getElem?_append_left hlt, hcall, Option.some.injEq] at hcall'
      rw [hcall']
      exact .inl rfl
    | answerCall j retryable =>
      simp only [Semantic.step, Semantic.editCall, List.getElem?_modify, hcall, Option.map_eq_map,
        Option.map_some, Option.some.injEq] at hcall'
      subst hcall'
      split
      · split
        · exact .inl (answerCall_sends s call _ retryable)
        · exact .inl rfl
      · exact .inl rfl
    | resumeCall j =>
      simp only [Semantic.step, Semantic.editCall, List.getElem?_modify, hcall, Option.map_eq_map,
        Option.map_some, Option.some.injEq] at hcall'
      subst hcall'
      split
      · split
        · next p hwaits =>
          have hdisposed := (h.calls call (List.mem_of_getElem? hcall)).reconnecting p hwaits
          unfold resumeCall
          split
          · exact (send_sends s call).imp_right fun hsent => ⟨hsent, hdisposed⟩
          · exact .inl rfl
          · exact .inl rfl
        · exact .inl rfl
      · exact .inl rfl
    | _ => exact absurd rfl he

end

end DenEdge.Operations.Semantic
