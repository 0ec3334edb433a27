import DenEdge.Wake.Model

/-!
# What a step does

`Does` says once what an act can do to the state. Triggers raise events, a registration takes away those that were
acknowledged or whose target is gone, and a restart or a removal takes the controller: nothing else touches what
is pending (`Fate`).
-/

namespace DenEdge.Wake

variable {s s' : State} {c c' c'' : Controller}

/-! ## What a trigger does to a controller -/

/-- A controller's pending events: one of a target, with an id that was drawn, and no trigger later than its last.
-/
structure Controller.Tidy (c : Controller) (draw : ℕ) : Prop where
  keys : (c.pending.map Prod.fst).Nodup
  drawn : ∀ target e, Assoc.get c.pending target = some e → e.id < draw
  late : ∀ target e, Assoc.get c.pending target = some e → ∀ a ∈ e.accepted, a.2 ≤ e.lastAcceptedAt

variable {lo hi draw : ℕ} {e : Event}

theorem Controller.Tidy.mono (h : c.Tidy lo) (hle : lo ≤ hi) : c.Tidy hi :=
  { h with drawn := fun target e he => (h.drawn target e he).trans_le hle }

/-- Triggers were accepted, with draws of a range: nothing is lost, and what changed has a new id. -/
structure Raises (lo hi : ℕ) (c c' : Controller) : Prop where
  le : lo ≤ hi
  generation : c'.pollGeneration = c.pollGeneration
  tidy : c.Tidy lo → c'.Tidy hi
  keeps : ∀ target, (Assoc.get c.pending target).isSome → (Assoc.get c'.pending target).isSome
  fresh : ∀ target e, Assoc.get c'.pending target = some e → Assoc.get c.pending target = some e ∨ lo ≤ e.id

theorem Raises.refl (draw : ℕ) (c : Controller) : Raises draw draw c c :=
  ⟨le_rfl, rfl, fun h => h, fun _ h => h, fun _ _ h => .inl h⟩

theorem Raises.trans {mid : ℕ} (h : Raises lo mid c c') (h' : Raises mid hi c' c'') : Raises lo hi c c'' := by
  refine ⟨h.le.trans h'.le, h'.generation.trans h.generation, fun ht => h'.tidy (h.tidy ht), ?_, ?_⟩
  · intro target hsome
    exact h'.keeps target (h.keeps target hsome)
  · intro target e he
    rcases h'.fresh target e he with hmid | hle
    · exact h.fresh target e hmid
    · exact .inr (h.le.trans hle)

theorem Raises.widen {lo' hi' : ℕ} (h : Raises lo hi c c') (hlo : lo' ≤ lo) (hhi : hi ≤ hi') :
    Raises lo' hi' c c' := by
  refine ⟨(hlo.trans h.le).trans hhi, h.generation, ?_, h.keeps, ?_⟩
  · intro ht
    exact (h.tidy (ht.mono hlo)).mono hhi
  · intro target e he
    exact (h.fresh target e he).imp_right hlo.trans

/-- One target's event is replaced by one with a new id. -/
theorem raises_set (target : String) (hid : e.id = draw)
    (hlate : c.Tidy draw → ∀ a ∈ e.accepted, a.2 ≤ e.lastAcceptedAt) :
    Raises draw (draw + 1) c { c with pending := Assoc.set c.pending target e } := by
  refine ⟨Nat.le_succ _, rfl, ?_, ?_, ?_⟩
  · intro ht
    refine ⟨Assoc.keys_set _ _ _ ht.keys, ?_, ?_⟩
    · intro target' e' he'
      rw [Assoc.get_set] at he'
      split_ifs at he' with heq
      · rw [← Option.some.inj he', hid]
        exact Nat.lt_succ_self draw
      · exact (ht.drawn target' e' he').trans (Nat.lt_succ_self draw)
    · intro target' e' he'
      rw [Assoc.get_set] at he'
      split_ifs at he' with heq
      · rw [← Option.some.inj he']
        exact hlate ht
      · exact ht.late target' e' he'
  · intro target' hsome
    rw [Assoc.get_set]
    split_ifs
    · rfl
    · exact hsome
  · intro target' e' he'
    rw [Assoc.get_set] at he'
    split_ifs at he'
    · rw [← Option.some.inj he', hid]
      exact .inr le_rfl
    · exact .inl he'

theorem addEvent_raises (c : Controller) (target : String) (source : Source) (at_ draw : ℕ) :
    Raises draw (draw + 1) c (addEvent c target source at_ draw) := by
  unfold addEvent
  split
  next current hcurrent =>
    refine raises_set target (by rfl) ?_
    intro ht a ha
    show a.2 ≤ max current.lastAcceptedAt at_
    rcases List.mem_snoc.mp ha with hold | rfl
    · exact (ht.late target current hcurrent a hold).trans (le_max_left _ _)
    · exact le_max_right _ _
  next =>
    refine raises_set target (by rfl) ?_
    intro _ a ha
    rw [List.mem_singleton.mp ha]

theorem addEvents_raises (source : Source) (at_ : ℕ) (targets : List String) (c : Controller) (draw : ℕ) :
    Raises draw (addEvents source at_ targets c draw).2 c (addEvents source at_ targets c draw).1 := by
  induction targets generalizing c draw with
  | nil => exact Raises.refl draw c
  | cons target _ ih => exact (addEvent_raises c target source at_ draw).trans (ih _ _)

/-- A controller is there as before, and triggers were accepted for it. -/
abbrev Raised (lo hi : ℕ) : Option Controller → Option Controller → Prop := Option.Rel (Raises lo hi)

variable {k k' : Option Controller}

theorem Raised.refl (draw : ℕ) (k : Option Controller) : Raised draw draw k k := by
  cases k with
  | none => exact .none
  | some c => exact .some (Raises.refl draw c)

theorem Raised.widen {lo' hi' : ℕ} (h : Raised lo hi k k') (hlo : lo' ≤ lo) (hhi : hi ≤ hi') :
    Raised lo' hi' k k' := by
  cases h with
  | none => exact .none
  | some h => exact .some (h.widen hlo hhi)

theorem Raised.isSome (h : Raised lo hi k k') : k'.isSome = k.isSome := by
  cases h <;> rfl

theorem notify_raises (source : Source) (at_ : ℕ) (concerned : String → Target → Bool)
    (memory : List ((String × ℕ) × Controller)) (draw : ℕ) :
    draw ≤ (notify source at_ concerned memory draw).2 ∧
    ∀ key, Raised draw (notify source at_ concerned memory draw).2 (Assoc.get memory key)
      (Assoc.get (notify source at_ concerned memory draw).1 key) := by
  induction memory generalizing draw with
  | nil => exact ⟨le_rfl, fun _ => .none⟩
  | cons entry _ ih =>
    simp only [notify]
    generalize (if at_ < entry.2.leaseUntil then _ else _) = targets
    have hfirst := addEvents_raises source at_ targets entry.2 draw
    obtain ⟨hle, hrest⟩ := ih (addEvents source at_ targets entry.2 draw).2
    refine ⟨hfirst.le.trans hle, fun key => ?_⟩
    rw [Assoc.get_cons, Assoc.get_cons]
    split_ifs
    · exact .some (hfirst.widen le_rfl hle)
    · exact (hrest key).widen hfirst.le le_rfl

/-- A look raises what the poll's controller missed, and the lock's holder knows that it looked. -/
theorem look_raises (s : State) (h : Section) (source : Source) (target : Target) (todo : List (Source × Target))
    (online : Bool) (trigger : Option (ℕ × ℕ)) :
    ∃ memory draw, s.nextEvent ≤ draw ∧
      (∀ key, Raised s.nextEvent draw (Assoc.get s.memory key) (Assoc.get memory key)) ∧
      look s h source target todo online trigger =
        { s with holder := some { h with todo := todo }, memory := memory, nextEvent := draw } := by
  have hsame : ∀ key, Raised s.nextEvent s.nextEvent (Assoc.get s.memory key) (Assoc.get s.memory key) :=
    fun _ => .refl _ _
  unfold look
  dsimp only
  split
  next first last c hget =>
    have hset : ∀ c', Raises s.nextEvent (s.nextEvent + 2) c c' → ∀ key, Raised s.nextEvent (s.nextEvent + 2)
        (Assoc.get s.memory key)
        (Assoc.get (Assoc.set s.memory (h.stored.library, h.stored.controller) c') key) := by
      intro c' hraises key
      rw [Assoc.get_set]
      split_ifs with hkey
      · rw [hkey, hget]
        exact .some hraises
      · exact (hsame key).widen le_rfl (Nat.le_add_right _ 2)
    split_ifs
    · exact ⟨_, _, Nat.le_add_right _ 2,
        hset _ ((addEvent_raises c _ _ _ _).trans (addEvent_raises _ _ _ _ _)), rfl⟩
    · exact ⟨_, _, Nat.le_add_right _ 2, hset _ ((addEvent_raises c _ _ _ _).widen le_rfl (Nat.le_succ _)), rfl⟩
    · exact ⟨s.memory, s.nextEvent, le_rfl, hsame, rfl⟩
  · exact ⟨s.memory, s.nextEvent, le_rfl, hsame, rfl⟩

/-! ## What a registration does to a controller -/

/-- A registration keeps an event unless it is acknowledged, or the targets change and its own is not among them.
-/
def keeps (changed : Bool) (targets : List Target) (acks : List ℕ) (p : String × Event) : Bool :=
  (!changed || targets.any (·.id = p.1)) && decide (p.2.id ∉ acks)

theorem foldl_ack_pending (acks : List ℕ) (h : Handled) :
    (acks.foldl Handled.ack h).pending = h.pending.filter fun p => decide (p.2.id ∉ acks) := by
  induction acks generalizing h with
  | nil => exact (List.filter_eq_self.mpr fun _ _ => by simp).symm
  | cons _ _ ih =>
    rw [List.foldl_cons, ih]
    show List.filter _ (List.filter _ h.pending) = _
    rw [List.filter_filter]
    refine List.filter_congr fun p _ => ?_
    simp [Bool.and_comm]

/-- A poll's registration, of a controller that is new or was there. -/
structure Entered (before : Option Controller) (targets : List Target) (acks : List ℕ)
    (c : Controller) : Prop where
  generation : c.pollGeneration = (before.map Controller.pollGeneration).getD 0 + 1
  pending : ∃ changed, c.pending = ((before.map Controller.pending).getD []).filter (keeps changed targets acks)

theorem register_entered (before : Option Controller) (targets : List Target) (now : ℕ) (acks : List ℕ)
    (watermarks : List (String × ℕ)) :
    Entered before targets acks { (register before targets now).1 with
      pending := (acks.foldl Handled.ack
        ⟨(register before targets now).1.pending, watermarks, []⟩).pending } := by
  cases before with
  | none => exact ⟨rfl, false, by rw [foldl_ack_pending]; rfl⟩
  | some c =>
    rw [foldl_ack_pending]
    by_cases hchanged : (decide (c.targets ≠ targets) || decide (c.leaseUntil ≤ now)) = true
    · simp only [register, Option.getD_some, if_pos hchanged]
      refine ⟨rfl, true, ?_⟩
      show List.filter _ (List.filter _ c.pending) = List.filter _ c.pending
      rw [List.filter_filter]
      refine List.filter_congr fun p _ => ?_
      simp [keeps, Bool.and_comm]
    · simp only [register, Option.getD_some, if_neg hchanged]
      refine ⟨rfl, false, ?_⟩
      show List.filter _ c.pending = List.filter _ c.pending
      refine List.filter_congr fun p _ => ?_
      simp [keeps]

variable {before : Option Controller} {targets : List Target} {acks : List ℕ} {sha : Digest} {target : String}

theorem Entered.get
    (h : Entered before targets acks c) (draw : ℕ) (ht : ∀ k, before = some k → k.Tidy draw) :
    ∃ changed, ∀ target, Assoc.get c.pending target =
      (before.bind fun k => Assoc.get k.pending target).filter fun e =>
      keeps changed targets acks (target, e) := by
  obtain ⟨changed, hpending⟩ := h.pending
  refine ⟨changed, fun target => ?_⟩
  rw [hpending]
  cases before with
  | none => rfl
  | some k => exact Assoc.get_filter (ht k rfl).keys _ target

theorem Entered.tidy
    (h : Entered before targets acks c) (ht : ∀ k, before = some k → k.Tidy draw) : c.Tidy draw := by
  obtain ⟨changed, hget⟩ := h.get draw ht
  have hold : ∀ target e, Assoc.get c.pending target = some e →
      ∃ k, before = some k ∧ Assoc.get k.pending target = some e := by
    intro target e he
    rw [hget] at he
    exact Option.bind_eq_some_iff.mp (Option.filter_eq_some_iff.mp he).1
  refine ⟨?_, ?_, ?_⟩
  · obtain ⟨changed', hpending⟩ := h.pending
    rw [hpending]
    refine Assoc.keys_filter _ ?_
    cases before with
    | none => exact List.nodup_nil
    | some k => exact (ht k rfl).keys
  · intro target e he
    obtain ⟨k, hk, hek⟩ := hold target e he
    exact (ht k hk).drawn target e hek
  · intro target e he
    obtain ⟨k, hk, hek⟩ := hold target e he
    exact (ht k hk).late target e hek

/-! ## What a step does -/

/-- The polls after one has registered: every other of its controller is superseded. -/
def superseding (s : State) (i : ℕ) (p : Poll) : List Poll :=
  (s.polls.map fun q => if q.stored.controller = p.stored.controller then { q with superseded := true }
    else q).set i { p with phase := .inside, superseded := false }

/-- An answer moves its poll on, and has the events that are pending of a poll that is not superseded. -/
theorem answer_spec (s : State) (i : ℕ) (p : Poll) (generation : ℕ) (hold : Bool) :
    ∃ p' answers, answer s i p generation hold =
      { s with polls := s.polls.set i p', answers := s.answers ++ answers } ∧
      p'.stored = p.stored ∧ p'.superseded = p.superseded ∧
      (p'.phase = .done ∨ p'.phase = .waiting generation false) ∧ ∀ a ∈ answers, a.superseded = p.superseded ∧
        ∃ c, Assoc.get s.memory (p.stored.library, p.stored.controller) = some c ∧
          (c.pollGeneration ≠ generation → a.events = []) ∧ ∀ e ∈ a.events, e ∈ c.pending := by
  unfold answer
  split
  · exact ⟨{ p with phase := .done }, [], by rw [List.append_nil], rfl, rfl, .inl rfl, List.forall_mem_nil _⟩
  next c hc =>
    dsimp only
    generalize hevents : (if c.pollGeneration ≠ generation then _ else _) = events
    split_ifs
    · refine ⟨{ p with phase := .done }, _, rfl, rfl, rfl, .inl rfl, ?_⟩
      intro a ha
      rw [List.mem_singleton.mp ha]
      refine ⟨rfl, c, hc, ?_, ?_⟩
      · intro hsuperseded
        rw [if_pos hsuperseded] at hevents
        exact hevents.symm
      · intro e he
        rw [← hevents] at he
        split_ifs at he
        · cases he
        · exact (List.mem_insertionSort _).mp he
    · exact ⟨{ p with phase := .waiting generation false }, [], by rw [List.append_nil], rfl, rfl, .inr rfl,
        List.forall_mem_nil _⟩

/-- **What an act does:** it raises events or nothing, or it is one of the others. -/
inductive Does (sha : Digest) (s : State) : Act → State → Prop where
  | raised (a : Act) (clock draw : ℕ) (memory : List ((String × ℕ) × Controller)) (holder : Option Section)
      (hle : s.nextEvent ≤ draw) (hmemory : ∀ key,
        Raised s.nextEvent draw (Assoc.get s.memory key) (Assoc.get memory key))
      (hholder : ∀ h', holder = some h' → ∃ h todo, s.holder = some h ∧ h' = { h with todo := todo }) :
      Does sha s a { s with clock := clock, memory := memory, holder := holder, nextEvent := draw }
  | enroll (hnone : s.holder = none) (library secret : String) :
      Does sha s (.enroll library secret) (enroll sha s library secret)
  | deleteController (hnone : s.holder = none) (library : String) (c : ℕ) :
      Does sha s (.deleteController library c) (deleteController s library c)
  | deleteLibrary (hnone : s.holder = none) (library : String) :
      Does sha s (.deleteLibrary library) (deleteLibrary s library)
  | authenticate {c : ℕ} {secret : String} {stored : StoredController}
      (hstored : authenticate sha s c secret = some stored) :
      Does sha s (.authenticate c secret) { s with polls := s.polls ++ [⟨stored, .reading, false⟩] }
  | entered {i : ℕ} {p : Poll} {targets : List Target} {acks : List ℕ} {c : Controller} {handled : Handled}
      {todo : List (Source × Target)} (hp : s.polls[i]? = some p) (hvalid : validPoll targets acks = true)
      (hfree : ¬ conflicts s p.stored targets = true)
      (hentered : Entered (Assoc.get s.memory (p.stored.library, p.stored.controller)) targets acks c)
      (hhandled : handled = acks.foldl Handled.ack ⟨(register (Assoc.get s.memory
        (p.stored.library, p.stored.controller)) targets s.clock).1.pending, p.stored.watermarks, []⟩) :
      Does sha s (.enter i targets acks) { s with
        memory := Assoc.set s.memory (p.stored.library, p.stored.controller) c
        polls := superseding s i p
        holder := some ⟨i, { p.stored with watermarks := handled.watermarks }, targets, c.pollGeneration, todo,
          handled.triggers⟩ }
  | refused {i : ℕ} {p : Poll} (hp : s.polls[i]? = some p) (targets : List Target) (acks : List ℕ) :
      Does sha s (.enter i targets acks) { s with polls := s.polls.set i { p with phase := .done } }
  | store {h : Section} {p : Poll} (hholder : s.holder = some h) (hp : s.polls[h.poll]? = some p) (hold : Bool) :
      Does sha s (.store h.poll hold) (store s h p hold)
  | answered {i : ℕ} {p p' : Poll} {generation : ℕ} {hold : Bool} {answers : List Answer}
      (hp : s.polls[i]? = some p) (hphase : p.phase = .waiting generation hold) (hstored : p'.stored = p.stored)
      (hsuperseded : p'.superseded = p.superseded) (hphase' : p'.phase = .done ∨
        p'.phase = .waiting generation false)
      (hnew : ∀ a ∈ answers, a.superseded = p.superseded ∧
        ∃ c, Assoc.get s.memory (p.stored.library, p.stored.controller) = some c ∧
          (c.pollGeneration ≠ generation → a.events = []) ∧ ∀ e ∈ a.events, e ∈ c.pending) :
      Does sha s (.answer i) { s with polls := s.polls.set i p', answers := s.answers ++ answers }
  | restart : Does sha s .restart { s with memory := [], polls := [], holder := none }

theorem Does.idle (sha : Digest) (s : State) (a : Act) : Does sha s a s :=
  .raised a s.clock s.nextEvent s.memory s.holder le_rfl (fun _ => .refl _ _) fun h hh => ⟨h, h.todo, hh, rfl⟩

theorem step_does (sha : Digest) (s : State) (a : Act) : Does sha s a (step sha s a) := by
  have hsame : ∀ h', s.holder = some h' → ∃ h todo, s.holder = some h ∧ h' = { h with todo := todo } :=
    fun h hh => ⟨h, h.todo, hh, rfl⟩
  have hnotified : ∀ source at_ concerned, Does sha s a (notified s source at_ concerned) := by
    intro source at_ concerned
    obtain ⟨hle, hraised⟩ := notify_raises source at_ concerned s.memory s.nextEvent
    exact .raised a s.clock _ _ s.holder hle hraised hsame
  cases a with dsimp only [step]
  | tick ms => exact .raised _ (s.clock + ms) s.nextEvent s.memory s.holder le_rfl (fun _ => .refl _ _) hsame
  | enroll library secret =>
    split
    next hnone => exact .enroll hnone library secret
    next => exact .idle sha s _
  | deleteController library c =>
    split
    next hnone => exact .deleteController hnone library c
    next => exact .idle sha s _
  | deleteLibrary library =>
    split
    next hnone => exact .deleteLibrary hnone library
    next => exact .idle sha s _
  | authenticate =>
    split
    next hstored => exact .authenticate hstored
    next => exact .idle sha s _
  | enter i targets acks =>
    split
    next hp =>
      split_ifs with hreading hvalid
      · unfold enter
        split_ifs with hconflict
        · exact .refused hp targets acks
        · exact .entered hp hvalid hconflict (register_entered _ targets s.clock acks _) rfl
      · exact .refused hp targets acks
      · exact .idle sha s _
    next => exact .idle sha s _
  | look i online trigger =>
    split
    next h hholder =>
      split
      · split_ifs
        · obtain ⟨memory, draw, hle, hraised, hlook⟩ := look_raises s h _ _ _ online trigger
          rw [hlook]
          refine .raised _ s.clock draw memory _ hle hraised fun h' hh' => ?_
          cases hh'
          exact ⟨h, _, hholder, rfl⟩
        · exact .idle sha s _
      · exact .idle sha s _
    next => exact .idle sha s _
  | store i hold =>
    split
    next hholder hp =>
      split_ifs with hdone
      · obtain ⟨rfl, -⟩ := hdone
        exact .store hholder hp hold
      · exact .idle sha s _
    next => exact .idle sha s _
  | answer i =>
    split
    next p hp =>
      split
      next generation hold hphase =>
        obtain ⟨p', answers, hanswer, hstored, hsuperseded, hphase', hnew⟩ := answer_spec s i p generation hold
        rw [hanswer]
        exact .answered hp hphase hstored hsuperseded hphase' hnew
      next => exact .idle sha s _
    next => exact .idle sha s _
  | notifyInbox | notifyAssistant => exact hnotified ..
  | restart => exact .restart

/-! ## What a step does to a controller in memory -/

/-- What becomes of a controller in memory. -/
inductive Fate (s : State) (a : Act) (draw : ℕ) (library : String) (controller : ℕ) :
    Option Controller → Option Controller → Prop
  | raised {k k' : Option Controller} (h : Raised s.nextEvent draw k k') : Fate s a draw library controller k k'
  | entered {before : Option Controller} {c : Controller} {i : ℕ} {targets : List Target}
      {acks : List ℕ} {p : Poll} (hact : a = .enter i targets acks) (hp : s.polls[i]? = some p)
      (hkey : (p.stored.library, p.stored.controller) = (library, controller))
        (h : Entered before targets acks c) :
      Fate s a draw library controller before (some c)
  | lost {k : Option Controller} (h : a = .restart ∨ a = .deleteController library controller ∨
      a = .deleteLibrary library) : Fate s a draw library controller k none

variable {a : Act} {controller : ℕ} {library : String}

theorem step_fate (sha : Digest) (s : State) (a : Act) (library : String) (controller : ℕ) :
    Fate s a (step sha s a).nextEvent library controller (Assoc.get s.memory (library, controller))
      (Assoc.get (step sha s a).memory (library, controller)) := by
  have hdoes := step_does sha s a
  generalize step sha s a = s' at hdoes ⊢
  cases hdoes with
  | raised _ _ _ _ _ _ hmemory => exact .raised (hmemory _)
  | enroll =>
    unfold enroll
    dsimp only
    split_ifs <;> exact .raised (.refl _ _)
  | deleteController _ library' c =>
    unfold deleteController
    by_cases hlisted : c ∈ s.index library'
    · rw [if_pos hlisted]
      dsimp only
      rw [Assoc.get_erase]
      split_ifs with hkey
      · cases hkey
        exact .lost (.inr (.inl rfl))
      · exact .raised (.refl _ _)
    · rw [if_neg hlisted]
      exact .raised (.refl _ _)
  | deleteLibrary _ library' =>
    unfold deleteLibrary
    rw [Assoc.get_filter_key s.memory (fun k => k.1 ≠ library')]
    split_ifs with hlib
    · exact .raised (.refl _ _)
    · obtain rfl : library = library' := by simpa using hlib
      exact .lost (.inr (.inr rfl))
  | entered hp _ _ hentered =>
    rw [Assoc.get_set]
    split_ifs with hkey
    · rw [hkey]
      exact .entered rfl hp hkey.symm hentered
    · exact .raised (.refl _ _)
  | restart => exact .lost (.inl rfl)
  | _ => exact .raised (.refl _ _)

/-! ## Every controller in memory is tidy -/

structure Tidy (s : State) : Prop where
  memory : ∀ library controller c, Assoc.get s.memory (library, controller) = some c → c.Tidy s.nextEvent
  answers : ∀ a ∈ s.answers, ∀ e ∈ a.events, e.2.id < s.nextEvent

theorem tidy_init : Tidy init := by
  refine ⟨?_, ?_⟩
  · intro library controller c hc
    cases hc
  · intro a ha
    cases ha

theorem step_draws (sha : Digest) (s : State) (a : Act) : s.nextEvent ≤ (step sha s a).nextEvent := by
  have hdoes := step_does sha s a
  generalize step sha s a = s' at hdoes ⊢
  cases hdoes with
  | raised _ _ _ _ _ hle => exact hle
  | enroll | deleteController =>
    dsimp only [enroll, deleteController]
    split_ifs <;> exact le_rfl
  | _ => exact le_rfl

/-- What a poll was answered is what was pending then. -/
theorem step_answers (sha : Digest) (s : State) (a : Act) {b : Answer} (hb : b ∈ (step sha s a).answers) :
    b ∈ s.answers ∨ ∃ key c, Assoc.get s.memory key = some c ∧ ∀ e ∈ b.events, e ∈ c.pending := by
  have hdoes := step_does sha s a
  generalize step sha s a = s' at hdoes hb
  cases hdoes with
  | answered _ _ _ _ _ hnew =>
    rcases List.mem_append.mp hb with hold | hmem
    · exact .inl hold
    · obtain ⟨-, c, hc, -, hevents⟩ := hnew b hmem
      exact .inr ⟨_, c, hc, hevents⟩
  | enroll | deleteController =>
    dsimp only [enroll, deleteController] at hb
    split_ifs at hb <;> exact .inl hb
  | _ => exact .inl hb

theorem step_tidy (h : Tidy s) (sha : Digest) (a : Act) : Tidy (step sha s a) := by
  refine ⟨?_, ?_⟩
  · intro library controller c hc
    have hfate := step_fate sha s a library controller
    have hbefore := h.memory library controller
    rw [hc] at hfate
    generalize Assoc.get s.memory (library, controller) = before at hfate hbefore
    cases hfate with
    | raised hraised =>
      cases hraised with
      | some hraises => exact hraises.tidy (hbefore _ rfl)
    | entered _ _ _ hentered => exact (hentered.tidy hbefore).mono (step_draws sha s a)
  · intro b hb e he
    rcases step_answers sha s a hb with hold | ⟨key, c, hc, hevents⟩
    · exact (h.answers b hold e he).trans_le (step_draws sha s a)
    · have htidy := h.memory _ _ c hc
      have hget := Assoc.get_of_mem_nodup htidy.keys (hevents e he)
      exact (htidy.drawn e.1 e.2 hget).trans_le (step_draws sha s a)

theorem pending_fate (sha : Digest) (s : State) (a : Act) (library : String) (controller : ℕ) (target : String) :
    ∃ before after, Fate s a (step sha s a).nextEvent library controller before after ∧
      Assoc.get s.memory (library, controller) = before ∧
      s.pending library controller target = before.bind (fun c => Assoc.get c.pending target) ∧
      (step sha s a).pending library controller target = after.bind fun c => Assoc.get c.pending target :=
  ⟨_, _, step_fate sha s a library controller, rfl, rfl, rfl⟩

/-- What can take an event away. -/
def Takes (s : State) (a : Act) (library : String) (controller : ℕ) (target : String) (e : Event) : Prop :=
  (∃ i targets acks p, a = .enter i targets acks ∧ s.polls[i]? = some p ∧ p.stored.controller = controller ∧
    (e.id ∈ acks ∨ ∀ t ∈ targets, t.id ≠ target)) ∨
  a = .restart ∨ a = .deleteController library controller ∨ a = .deleteLibrary library

/-- An event is pending until it is acknowledged, or its target is no longer registered. -/
theorem Tidy.taken (h : Tidy s) (he : s.pending library controller target = some e)
    (hnone : (step sha s a).pending library controller target = none) :
    Takes s a library controller target e := by
  obtain ⟨before, after, hfate, hmemory, hbefore, hafter⟩ := pending_fate sha s a library controller target
  rw [hbefore] at he
  rw [hafter] at hnone
  cases hfate with
  | raised hraised =>
    cases hraised with
    | none => cases he
    | some hraises =>
      have hkept := hraises.keeps target (by rw [show Assoc.get _ target = some e from he]; rfl)
      rw [show Assoc.get _ target = none from hnone] at hkept
      cases hkept
  | @entered c i targets acks p hact hp hkey hentered =>
    refine .inl ⟨i, targets, acks, p, hact, hp, (Prod.mk.inj hkey).2, ?_⟩
    obtain ⟨changed, hget⟩ :=
      hentered.get s.nextEvent fun k hk => h.memory library controller k (hmemory.trans hk)
    have hfilter := hget target
    rw [show Assoc.get c.pending target = none from hnone, he] at hfilter
    have hdropped : ¬ keeps changed targets acks (target, e) = true := by
      intro hkeeps
      rw [Option.filter_some, if_pos hkeeps] at hfilter
      cases hfilter
    unfold keeps at hdropped
    by_cases hack : e.id ∈ acks
    · exact .inl hack
    · refine .inr fun t ht heq => hdropped ?_
      have hlisted : (targets.any fun x => decide (x.id = target)) = true :=
        List.any_eq_true.mpr ⟨t, ht, decide_eq_true heq⟩
      rw [hlisted, decide_eq_true hack, Bool.or_true, Bool.and_true]
  | lost hlost => exact .inr hlost

/-- An event that is new, or that a trigger was added to, has an id of its own. -/
theorem Tidy.fresh (h : Tidy s) (hnew : s.pending library controller target ≠ some e)
    (he : (step sha s a).pending library controller target = some e) : s.nextEvent ≤ e.id := by
  obtain ⟨before, after, hfate, hmemory, hbefore, hafter⟩ := pending_fate sha s a library controller target
  rw [hbefore] at hnew
  rw [hafter] at he
  cases hfate with
  | raised hraised =>
    cases hraised with
    | none => cases he
    | some hraises =>
      rcases hraises.fresh target e he with hold | hle
      · exact absurd hold hnew
      · exact hle
  | @entered c _ _ _ _ _ _ _ hentered =>
    obtain ⟨changed, hget⟩ :=
      hentered.get s.nextEvent fun k hk => h.memory library controller k (hmemory.trans hk)
    have hfilter := hget target
    rw [show Assoc.get c.pending target = some e from he] at hfilter
    exact absurd (Option.filter_eq_some_iff.mp hfilter.symm).1 hnew
  | lost => cases he

end DenEdge.Wake
