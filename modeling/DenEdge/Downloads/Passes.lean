import DenEdge.Base.Assoc
import DenEdge.Base.Run

/-!
# The passes of the download driver

A driver runs one pass at a time. Whoever asks while one runs shares it, but a refresh wants figures from after it
asked: it waits for one more pass, which every refresh asked meanwhile shares. Their names are put together; of
their predicates, which tell a pass to stop, the first is kept.
-/

namespace DenEdge.Downloads

/-- What a pass is asked: a time to go by, whether it is forced, whose predicate may stop it, and some names or
all. -/
structure Options where
  now : Option ℕ := none
  observedFor : Option ℕ := none
  force : Bool := false
  current : Option ℕ := none
  names : Option (List String) := none
  deriving DecidableEq

/-- The forced pass that follows another. -/
structure Again where
  options : Options
  after : ℕ

/-- A call of `run`: how many passes had started before it, and the pass it is answered by, once that has started.
-/
structure Call where
  options : Options
  before : ℕ
  pass : Option ℕ
  deriving DecidableEq

structure Driver where
  running : Option ℕ
  again : Option Again
  /-- What the passes that were started were asked. -/
  passes : List Options
  calls : List Call
  /-- The passes that another was made to follow. -/
  followed : List ℕ

def Driver.init : Driver := ⟨none, none, [], [], []⟩

/-- The waiting pass takes up the names of another call. -/
def Options.join (waiting o : Options) : Options :=
  { waiting with
    names := match waiting.names, o.names with
      | some names, some more => some (names ++ more)
      | _, _ => none }

def Driver.after (s : Driver) (o : Options) (i : ℕ) : Driver :=
  match s.again with
  | some waiting => { s with again := some { waiting with options := waiting.options.join o } }
  | none => { s with again := some ⟨o, i⟩, followed := s.followed ++ [i] }

/-- What a call does, and the pass it is answered by; `none` is the one that waits. -/
def Driver.run (s : Driver) (o : Options) : Driver × Option ℕ :=
  match s.running with
  | some i => if o.force then (s.after o i, none) else (s, some i)
  | none => ({ s with running := some s.passes.length, passes := s.passes ++ [o] }, some s.passes.length)

/-- A call; the end of the running pass; the turn of what waited for one, which may find that another has started.
-/
inductive Event where
  | run (o : Options)
  | ended
  | next

def step (s : Driver) : Event → Driver
  | .run o =>
    let (s', pass) := s.run o
    { s' with calls := s.calls ++ [⟨o, s.passes.length, pass⟩] }
  | .ended => { s with running := none }
  | .next =>
    match s.again with
    | none => s
    | some waiting =>
      if s.running = some waiting.after then s
      else
        let (s', pass) := { s with again := none }.run waiting.options
        { s' with calls := s.calls.map fun c => { c with pass := c.pass.or pass } }

/-- A refresh asked while another waits may be stopped by what stops that one. -/
def Agrees (s : Driver) : Event → Prop
  | .run o =>
    s.running.isSome → o.force = true → ∀ w ∈ s.again, w.options.current = none ∨ w.options.current = o.current
  | _ => True

instance (s : Driver) : ∀ e, Decidable (Agrees s e)
  | .run _ => inferInstanceAs (Decidable (_ → _ → _))
  | .ended | .next => .isTrue trivial

/-! ## What is asked and what is done -/

def Options.asks (o : Options) (name : String) : Prop := ∀ names ∈ o.names, name ∈ names

/-- A pass does what a forced call asked: it is forced, takes every name, and stops at that call's word alone. -/
structure Options.Serves (o c : Options) : Prop where
  force : o.force = true
  names : ∀ name, c.asks name → o.asks name
  current : o.current = none ∨ o.current = c.current

variable {s : Driver} {o c waiting : Options} {call : Call} {i : ℕ}

theorem asks_join {name : String} (h : waiting.asks name ∨ o.asks name) : (waiting.join o).asks name := by
  intro names hnames
  unfold Options.join at hnames
  dsimp only at hnames
  split at hnames
  next kept more hkept hmore =>
    cases hnames
    rw [List.mem_append]
    exact h.imp (fun hasks => hasks kept hkept) fun hasks => hasks more hmore
  next => cases hnames

theorem Options.Serves.join (h : waiting.Serves c) (o : Options) : (waiting.join o).Serves c :=
  ⟨h.force, fun name hname => asks_join (.inl (h.names name hname)), h.current⟩

/-- One pass runs, the last that was started; what waits is forced, and follows the running pass or an earlier
one. -/
structure Passing (s : Driver) : Prop where
  latest : ∀ i, s.running = some i → s.passes.length = i + 1
  forced : ∀ w, s.again = some w → w.options.force = true
  known : ∀ i ∈ s.followed, i < s.passes.length
  follows : ∀ i, s.running = some i → i ∈ s.followed → ∃ w, s.again = some w ∧ w.after = i
  nodup : s.followed.Nodup

theorem Passing.after (h : Passing s) (hi : s.running = some i) (hforce : o.force = true) :
    Passing (s.after o i) := by
  unfold Driver.after
  split
  next w hw =>
    refine ⟨h.latest, ?_, h.known, fun j hj hmem => ?_, h.nodup⟩
    · rintro _ ⟨⟩
      exact h.forced w hw
    · obtain ⟨w', hw', hafter⟩ := h.follows j hj hmem
      cases hw.symm.trans hw'
      exact ⟨_, rfl, hafter⟩
  next hnone =>
    have hnew : i ∉ s.followed := by
      intro hmem
      obtain ⟨w, hw, -⟩ := h.follows i hi hmem
      cases hnone.symm.trans hw
    have hlt : i < s.passes.length := by
      have hlatest := h.latest i hi
      omega
    refine ⟨h.latest, ?_, List.forall_mem_snoc h.known hlt, fun j hj _ =>
      ⟨_, rfl, Option.some.inj (hi.symm.trans hj)⟩, ?_⟩
    · rintro _ ⟨⟩
      exact hforce
    · rw [← List.concat_eq_append]
      exact List.Nodup.concat hnew h.nodup

theorem Passing.run (h : Passing s) (o : Options) : Passing (s.run o).1 := by
  unfold Driver.run
  split
  next i hi =>
    split_ifs with hforce
    · exact h.after hi hforce
    · exact h
  next =>
    refine ⟨?_, h.forced, fun i hi => ?_, fun i hi hmem => ?_, h.nodup⟩
    · rintro _ ⟨⟩
      simp
    · have hlt := h.known i hi
      simp only [List.length_append, List.length_singleton]
      omega
    · cases hi
      exact absurd (h.known _ hmem) (lt_irrefl _)

/-- A call waits for a pass that serves it, or has one that started after it. -/
structure Answered (s : Driver) (c : Call) : Prop where
  before : c.before ≤ s.passes.length
  waits : c.pass = none → ∃ w, s.again = some w ∧ w.options.Serves c.options
  done : ∀ i, c.pass = some i → c.before ≤ i ∧ ∃ o, s.passes[i]? = some o ∧ o.Serves c.options

theorem Options.Serves.trans {o' : Options} (h : o'.Serves o) (h' : o.Serves c) : o'.Serves c := by
  refine ⟨h.force, fun name hname => h.names name (h'.names name hname), ?_⟩
  rcases h.current with hnone | hsame
  · exact .inl hnone
  · rw [hsame]
    exact h'.current

/-- What answers a call answers an earlier one that it serves. -/
theorem Answered.earlier {n : ℕ} {pass : Option ℕ} (h : Answered s ⟨o, n, pass⟩) (hserves : o.Serves call.options)
    (hle : call.before ≤ n) : Answered s { call with pass := pass } := by
  refine ⟨hle.trans h.before, fun hnone => ?_, fun i hi => ?_⟩
  · obtain ⟨w, hw, hserves'⟩ := h.waits hnone
    exact ⟨w, hw, hserves'.trans hserves⟩
  · obtain ⟨hle', o', ho', hserves'⟩ := h.done i hi
    exact ⟨hle.trans hle', o', ho', hserves'.trans hserves⟩

/-- The passes that were started stay, and what waits serves all that it did. -/
theorem run_keeps (s : Driver) (o : Options) :
    s.passes <+: (s.run o).1.passes ∧ ∀ w, s.again = some w →
      ∃ w', (s.run o).1.again = some w' ∧ ∀ c, w.options.Serves c → w'.options.Serves c := by
  unfold Driver.run Driver.after
  split
  · split_ifs
    · refine ⟨?_, fun w hw => ?_⟩
      · split <;> exact List.prefix_rfl
      · rw [hw]
        exact ⟨_, rfl, fun c hserves => hserves.join o⟩
    · exact ⟨List.prefix_rfl, fun w hw => ⟨w, hw, fun _ => id⟩⟩
  · exact ⟨List.prefix_append _ _, fun w hw => ⟨w, hw, fun _ => id⟩⟩

theorem Answered.run (h : Answered s call) (o : Options) : Answered (s.run o).1 call := by
  obtain ⟨⟨more, hmore⟩, hagain⟩ := run_keeps s o
  refine ⟨h.before.trans ?_, fun hnone => ?_, fun i hi => ?_⟩
  · simp [← hmore]
  · obtain ⟨w, hw, hserves⟩ := h.waits hnone
    obtain ⟨w', hw', hlater⟩ := hagain w hw
    exact ⟨w', hw', hlater _ hserves⟩
  · obtain ⟨hle, o', ho', hserves⟩ := h.done i hi
    refine ⟨hle, o', ?_, hserves⟩
    rw [← hmore, List.getElem?_append_left (List.getElem?_eq_some_iff.mp ho').1]
    exact ho'

theorem run_answered (h : Passing s) (hforce : o.force = true)
    (hagrees : s.running.isSome → ∀ w ∈ s.again, w.options.current = none ∨ w.options.current = o.current) :
    Answered (s.run o).1 ⟨o, s.passes.length, (s.run o).2⟩ := by
  have hself : o.Serves o := ⟨hforce, fun _ hname => hname, .inr rfl⟩
  unfold Driver.run
  split
  next i hi =>
    rw [if_pos hforce]
    unfold Driver.after
    split
    next w hw =>
      refine ⟨le_rfl, fun _ => ⟨_, rfl, h.forced w hw, fun name hname => asks_join (.inr hname), ?_⟩, nofun⟩
      exact hagrees (by rw [hi]; rfl) w hw
    next => exact ⟨le_rfl, fun _ => ⟨_, rfl, hself⟩, nofun⟩
  next =>
    refine ⟨by simp, nofun, ?_⟩
    rintro _ ⟨⟩
    exact ⟨le_rfl, o, by simp, hself⟩

structure Ordered (s : Driver) : Prop where
  passing : Passing s
  answered : ∀ c ∈ s.calls, c.options.force = true → Answered s c

theorem step_ordered (h : Ordered s) {e : Event} (hagrees : Agrees s e) : Ordered (step s e) := by
  have hpassing := h.passing
  cases e with
  | run o =>
    have hrun := hpassing.run o
    refine ⟨{ hrun with }, fun call hcall hforce => ?_⟩
    rcases List.mem_append.mp hcall with hold | hnew
    · exact { (h.answered call hold hforce).run o with }
    · cases List.mem_singleton.mp hnew
      exact { run_answered hpassing hforce fun hsome => hagrees hsome hforce with }
  | ended =>
    exact ⟨{ hpassing with latest := nofun, follows := nofun }, fun c hc hforce =>
      { h.answered c hc hforce with }⟩
  | next =>
    simp only [step]
    split
    next => exact h
    next w hw =>
      split_ifs with hafter
      · exact h
      -- what waited is asked anew, with nothing waiting
      have hidle : Passing { s with again := none } := by
        refine { hpassing with forced := nofun, follows := fun i hi hmem => ?_ }
        obtain ⟨w', hw', hi'⟩ := hpassing.follows i hi hmem
        cases hw.symm.trans hw'
        exact absurd (hi' ▸ hi) hafter
      have hrun := hidle.run w.options
      have hnew := run_answered hidle (hpassing.forced w hw) nofun
      refine ⟨{ hrun with }, fun call hcall hforce => ?_⟩
      obtain ⟨call, hold, rfl⟩ := List.mem_map.mp hcall
      have hanswered := h.answered call hold hforce
      cases hp : call.pass with
      | none =>
        obtain ⟨w', hw', hserves⟩ := hanswered.waits hp
        cases hw.symm.trans hw'
        exact { hnew.earlier hserves hanswered.before with }
      | some i =>
        have hkept : Answered { s with again := none } { call with pass := some i } :=
          ⟨hanswered.before, nofun, hp ▸ hanswered.done⟩
        exact { hkept.run w.options with }

/-- While a pass runs, none starts. -/
theorem run_passes (hi : s.running = some i) (o : Options) : (s.run o).1.passes = s.passes := by
  unfold Driver.run Driver.after
  rw [hi]
  dsimp only
  split_ifs
  · cases s.again <;> rfl
  · rfl

theorem step_passes (hi : s.running = some i) (e : Event) : (step s e).passes = s.passes := by
  cases e with
  | run o => exact run_passes hi o
  | ended => rfl
  | next =>
    simp only [step]
    split
    · rfl
    · split_ifs
      · rfl
      · exact run_passes (s := { s with again := none }) hi _

/-- Once the running pass has ended, what waits starts. -/
theorem Ordered.settles (h : Ordered s) (hcall : call ∈ (Run.exec step s [.ended, .next]).calls)
    (hforce : call.options.force = true) : call.pass.isSome := by
  simp only [Run.exec_cons, Run.exec_nil, step] at hcall
  split at hcall
  next hnone =>
    cases hp : call.pass with
    | some i => rfl
    | none =>
      obtain ⟨w, hw, -⟩ := (h.answered call hcall hforce).waits hp
      cases hnone.symm.trans hw
  next w hw =>
    rw [if_neg nofun] at hcall
    obtain ⟨call, -, rfl⟩ := List.mem_map.mp hcall
    cases hp : call.pass <;> simp [Driver.run]

/-- **A refresh gets a pass of its own**, in every run in which a refresh asked while another waits may be stopped
by what stops that one. A pass starts only while none runs, and each is followed by at most one for the calls made
while it ran; a forced call is answered by a pass that started after it and serves it, at the latest by the one
that starts when the running pass has ended. -/
theorem refresh_gets_its_pass (es : List Event) (hmeets : Run.Meets step Agrees Driver.init es) :
    let s := Run.exec step Driver.init es
    (∀ e, (step s e).passes ≠ s.passes → s.running = none) ∧ s.followed.Nodup ∧
      (∀ c ∈ s.calls, c.options.force = true → ∀ i, c.pass = some i →
        c.before ≤ i ∧ ∃ o, s.passes[i]? = some o ∧ o.Serves c.options) ∧
      ∀ c ∈ (Run.exec step s [.ended, .next]).calls, c.options.force = true → c.pass.isSome := by
  intro s
  have hordered : Ordered s := by
    refine Run.exec_inv (I := Ordered) (fun _ _ h hagrees => step_ordered h hagrees)
      ⟨⟨?_, ?_, ?_, ?_, ?_⟩, ?_⟩ hmeets
    all_goals simp [Driver.init]
  refine ⟨fun e hstarts => ?_, hordered.passing.nodup, fun c hc hforce => (hordered.answered c hc hforce).done,
    fun c hc => hordered.settles hc⟩
  by_contra hrunning
  obtain ⟨i, hi⟩ := Option.ne_none_iff_exists'.mp hrunning
  exact hstarts (step_passes hi e)

/-- A refresh of one name. -/
def refresh (name : String) : Options := { force := true, names := some [name] }

/-- Two refreshes wait for a running pass; once it has ended, one pass serves both. -/
theorem refresh_gets_its_pass_two :
    let s := Run.exec step Driver.init [.run (refresh "a"), .run (refresh "b"), .run (refresh "c"), .ended, .next]
    s.followed = [0] ∧ s.followed.Nodup ∧
      ∃ o, s.passes[1]? = some o ∧ o.Serves (refresh "b") ∧ o.Serves (refresh "c") := by
  obtain ⟨-, hnodup, hserved, -⟩ := refresh_gets_its_pass
    [.run (refresh "a"), .run (refresh "b"), .run (refresh "c"), .ended, .next] (by decide)
  obtain ⟨-, o, ho, hb⟩ := hserved ⟨refresh "b", 1, some 1⟩ (by decide) rfl 1 rfl
  obtain ⟨-, o', ho', hc⟩ := hserved ⟨refresh "c", 1, some 1⟩ (by decide) rfl 1 rfl
  cases Option.some.inj (ho.symm.trans ho')
  exact ⟨by decide, hnodup, o, ho, hb, hc⟩

/-- **The first refresh's predicate stops the pass.** Two refreshes wait, and the pass they share is stopped by
the first one's predicate alone. -/
theorem first_predicate_stops_both :
    let s := Run.exec step Driver.init
      [.run {}, .run { force := true, current := some 1 }, .run { force := true, current := some 2 },
       .ended, .next]
    s.calls[2]? = some ⟨{ force := true, current := some 2 }, 1, some 1⟩ ∧
      s.passes[1]? = some { force := true, current := some 1 } := by
  decide

end DenEdge.Downloads
