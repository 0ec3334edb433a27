import DenEdge.Wake.Removed

/-!
# No wake is lost, none acknowledged twice

An event is pending until it is acknowledged under its last id, or until its target is registered no more. What
was acknowledged is kept in the record that a poll writes back; in the runs in which no poll writes over what
another acknowledged, the record's times only grow, and a trigger that was acknowledged raises no event again.
-/

namespace DenEdge.Wake

variable {s s' : State}

/-! ## What was handled stays handled -/

theorem get_raise (watermarks : List (String × ℕ)) (target target' : String) (at_ : ℕ) :
    (Assoc.get (raise watermarks target at_) target').getD 0 =
      if target' = target then max ((Assoc.get watermarks target).getD 0) at_
      else (Assoc.get watermarks target').getD 0 := by
  unfold raise
  split
  next before hbefore =>
    rw [Assoc.get_set, hbefore]
    split_ifs <;> rfl
  next hnone =>
    rw [Assoc.get_set, hnone]
    split_ifs
    · exact (Nat.zero_max at_).symm
    · rfl

/-- Each of some events was handled, and nothing that was is forgotten. -/
theorem foldl_raise (acked : List (String × Event)) (watermarks : List (String × ℕ)) :
    (∀ target, (Assoc.get watermarks target).getD 0 ≤
      (Assoc.get (acked.foldl (fun w p => raise w p.1 p.2.lastAcceptedAt) watermarks) target).getD 0) ∧
    ∀ p ∈ acked, p.2.lastAcceptedAt ≤
      (Assoc.get (acked.foldl (fun w p => raise w p.1 p.2.lastAcceptedAt) watermarks) p.1).getD 0 := by
  induction acked generalizing watermarks with
  | nil => exact ⟨fun _ => le_rfl, fun p hp => nomatch hp⟩
  | cons q acked ih =>
    obtain ⟨hle, hacked⟩ := ih (raise watermarks q.1 q.2.lastAcceptedAt)
    refine ⟨fun target => le_trans ?_ (hle target), ?_⟩
    · rw [get_raise]
      split_ifs with heq
      · rw [heq]
        exact le_max_left _ _
      · exact le_rfl
    · refine List.forall_mem_cons.mpr ⟨le_trans ?_ (hle _), hacked⟩
      rw [get_raise, if_pos rfl]
      exact le_max_right _ _

/-- The times of what was handled are at least those of before, and at least those of each trigger that was
handled. -/
structure Handled.OK (h : Handled) (watermarks : List (String × ℕ)) : Prop where
  grows : ∀ target, (Assoc.get watermarks target).getD 0 ≤ (Assoc.get h.watermarks target).getD 0
  late : ∀ p ∈ h.pending, ∀ a ∈ p.2.accepted, a.2 ≤ p.2.lastAcceptedAt
  triggers : ∀ x ∈ h.triggers, x.2.2 ≤ (Assoc.get h.watermarks x.1).getD 0

variable {watermarks : List (String × ℕ)} {draw controller c : ℕ} {memory : List ((String × ℕ) × Controller)}
    {before : Option Controller} {section_ : Section} {library : String} {sha : Digest} {r : StoredController}

theorem Handled.OK.ack {h : Handled} (hok : h.OK watermarks) (ack : ℕ) :
    (h.ack ack).OK watermarks := by
  obtain ⟨hle, hacked⟩ := foldl_raise (h.pending.filter fun p => p.2.id = ack) h.watermarks
  refine ⟨fun target => (hok.grows target).trans (hle target), ?_, ?_⟩
  · intro p hp
    exact hok.late p (List.mem_of_mem_filter hp)
  · intro x hx
    rcases List.mem_append.mp hx with hold | hnew
    · exact (hok.triggers x hold).trans (hle x.1)
    · obtain ⟨p, hp, hxp⟩ := List.mem_flatMap.mp hnew
      obtain ⟨a, ha, rfl⟩ := List.mem_map.mp hxp
      exact (hok.late p (List.mem_of_mem_filter hp) a ha).trans (hacked p hp)

theorem Handled.OK.acks {h : Handled} (hok : h.OK watermarks) (acks : List ℕ) :
    (acks.foldl Handled.ack h).OK watermarks := by
  induction acks generalizing h with
  | nil => exact hok
  | cons ack acks ih => exact ih (hok.ack ack)

/-! ## The invariant -/

/-- The generation of a controller in memory. -/
def State.generation (s : State) (library : String) (controller : ℕ) : Option ℕ :=
  (Assoc.get s.memory (library, controller)).map Controller.pollGeneration

/-- A poll with the lock will write at least what the record has. -/
structure Section.Ahead (h : Section) (s : State) : Prop where
  record : ∀ r, Assoc.get s.records h.stored.controller = some r →
    ∀ target, r.watermark target ≤ h.stored.watermark target
  handled : ∀ x ∈ h.handled, x.2.2 ≤ h.stored.watermark x.1
  poll : ∃ p, s.polls[h.poll]? = some p ∧
    p.stored.controller = h.stored.controller ∧ p.stored.library = h.stored.library ∧ p.superseded = false
  generation : s.generation h.stored.library h.stored.controller = some h.generation

/-- A registered poll's generation is its controller's, or an older one where a later poll has registered. -/
def Poll.Waits (p : Poll) (s : State) : Prop :=
  ∀ generation hold, p.phase = .waiting generation hold →
    (∀ n, s.generation p.stored.library p.stored.controller = some n → generation ≤ n ∧
      (p.superseded → generation < n)) ∧
    (s.generation p.stored.library p.stored.controller = none → Assoc.get s.records p.stored.controller = none)

structure Fine (s : State) : Prop where
  holder : ∀ h, s.holder = some h → h.Ahead s
  acked : ∀ x ∈ s.acked, x.1 < s.nextController ∧
    ∀ r, Assoc.get s.records x.1 = some r → x.2.2.2 ≤ r.watermark x.2.1
  waits : ∀ p ∈ s.polls, p.Waits s
  answered : ∀ a ∈ s.answers, a.superseded = true → a.events = []

theorem fine_init : Fine init := by
  refine ⟨?_, ?_, ?_, ?_⟩ <;> simp [init]

/-- A step that keeps the records, the polls and the generations. -/
theorem Fine.same (h : Fine s) {clock : ℕ} {holder : Option Section}
    (hgeneration : ∀ library c, State.generation { s with memory := memory } library c = s.generation library c)
    (hholder : ∀ h', holder = some h' → ∃ before todo, s.holder = some before ∧
      h' = { before with todo := todo }) :
    Fine { s with clock := clock, memory := memory, holder := holder, nextEvent := draw } := { h with
  holder h' hh' := by
    obtain ⟨before, todo, hbefore, rfl⟩ := hholder h' hh'
    have hahead := h.holder before hbefore
    exact { hahead with generation := (hgeneration _ _).trans hahead.generation }
  waits p hp generation hold hphase := by
    have hwaits := h.waits p hp generation hold hphase
    rw [← hgeneration] at hwaits
    exact hwaits }

/-- A step that only takes controllers out. -/
theorem Fine.fewer (h : Fine s) (hnone : s.holder = none) {records : List (ℕ × StoredController)}
    {indexes : List (String × List ℕ)} {removed : List ℕ}
    (hrecords : ∀ c r, Assoc.get records c = some r → Assoc.get s.records c = some r)
    (hgeneration : ∀ library c n, State.generation { s with memory := memory } library c = some n →
      s.generation library c = some n)
    (hlost : ∀ p ∈ s.polls, State.generation { s with memory := memory } p.stored.library
      p.stored.controller = none →
      s.generation p.stored.library p.stored.controller = none ∨ Assoc.get records p.stored.controller = none) :
    Fine { s with records := records, indexes := indexes, memory := memory, removed := removed } := by
  refine ⟨?_, ?_, ?_, h.answered⟩
  · intro h' hh'
    cases hnone.symm.trans hh'
  · intro x hx
    obtain ⟨hlt, hle⟩ := h.acked x hx
    exact ⟨hlt, fun r hr => hle r (hrecords _ r hr)⟩
  · intro p hp generation hold hphase
    obtain ⟨hsome, hgone⟩ := h.waits p hp generation hold hphase
    refine ⟨fun n hn => hsome n (hgeneration _ _ n hn), fun hn => ?_⟩
    rcases hlost p hp hn with hbefore | hdeleted
    · have hrecord := hgone hbefore
      cases hr : Assoc.get records p.stored.controller with
      | none => rfl
      | some r => cases hrecord.symm.trans (hrecords _ r hr)
    · exact hdeleted

theorem Fine.enroll (h : Fine s) (hgood : Good s) (hnone : s.holder = none) (sha : Digest)
    (library secret : String) : Fine (enroll sha s library secret) := by
  unfold Wake.enroll
  dsimp only
  split_ifs
  · exact h
  have hold : ∀ c, c < s.nextController → Assoc.get (Assoc.set s.records s.nextController
      ⟨s.nextController, library, sha.of secret, [], []⟩) c = Assoc.get s.records c := by
    intro c hlt
    rw [Assoc.get_set, if_neg (Nat.ne_of_lt hlt)]
  refine ⟨?_, ?_, ?_, h.answered⟩
  · intro h' hh'
    cases hnone.symm.trans hh'
  · intro x hx
    obtain ⟨hlt, hle⟩ := h.acked x hx
    refine ⟨Nat.lt_succ_of_lt hlt, fun r hr => hle r ?_⟩
    exact (hold x.1 hlt).symm.trans hr
  · intro p hp generation hold' hphase
    obtain ⟨hsome, hgone⟩ := h.waits p hp generation hold' hphase
    have hlt := hgood.enrolled _ _ (hgood.polls p hp)
    exact ⟨hsome, fun hn => (hold _ hlt).trans (hgone hn)⟩

theorem Fine.deleteController (h : Fine s) (hnone : s.holder = none) (library : String) (c : ℕ) :
    Fine (deleteController s library c) := by
  unfold Wake.deleteController
  dsimp only
  by_cases hlisted : c ∈ s.index library
  · rw [if_pos hlisted]
    refine h.fewer hnone ?_ ?_ ?_
    · intro c' r hr
      exact Assoc.get_of_erase hr
    · intro library' c' n hn
      dsimp only [State.generation] at hn
      rw [Assoc.get_erase] at hn
      split_ifs at hn
      · cases hn
      · exact hn
    · intro p _ hgone
      dsimp only [State.generation] at hgone
      rw [Assoc.get_erase] at hgone
      split_ifs at hgone with hkey
      · refine .inr ?_
        rw [Assoc.get_erase, if_pos (Prod.mk.inj hkey).2]
      · exact .inl hgone
  · rw [if_neg hlisted]
    exact h.fewer hnone (fun _ _ hr => hr) (fun _ _ _ hn => hn) fun _ _ hgone => .inl hgone

theorem Fine.deleteLibrary (h : Fine s) (hgood : Good s) (hnone : s.holder = none) (library : String) :
    Fine (deleteLibrary s library) := by
  have hgood' := hgood.deleteLibrary hnone library
  have hgeneration : ∀ library' c,
      State.generation { s with memory := s.memory.filter fun e => e.1.1 ≠ library } library' c =
      if library' = library then none else s.generation library' c := by
    intro library' c
    unfold State.generation
    dsimp only
    rw [Assoc.get_filter_key s.memory (fun k => k.1 ≠ library)]
    by_cases hlib : library' = library
    · rw [if_neg (by simpa using hlib), if_pos hlib]
      rfl
    · rw [if_pos (by simpa using hlib), if_neg hlib]
  refine h.fewer hnone ?_ ?_ ?_
  · intro c r hr
    have hget := (Assoc.get_foldl_erase _ s.records c).symm.trans hr
    split_ifs at hget
    exact hget
  · intro library' c n hn
    rw [hgeneration] at hn
    split_ifs at hn
    exact hn
  · intro p hp hgone
    rw [hgeneration] at hgone
    split_ifs at hgone with hlib
    · -- a record that is left would be in the index that is not
      refine .inr ?_
      cases hr : Assoc.get (Wake.deleteLibrary s library).records p.stored.controller with
      | none => exact hr
      | some r =>
        obtain ⟨-, howner, hmem, -⟩ := hgood'.record _ r hr
        have hlib' : p.stored.library = r.library := Option.some.inj ((hgood.polls p hp).symm.trans howner)
        rw [← hlib', hlib] at hmem
        have hempty : (Wake.deleteLibrary s library).index library = [] :=
          (index_erase s library library).trans (if_pos rfl)
        rw [hempty] at hmem
        cases hmem
    · exact .inl hgone

variable {p : Poll}

theorem Poll.Waits.reading (h : ∀ generation hold, p.phase ≠ .waiting generation hold) : p.Waits s :=
  fun generation hold hphase => absurd hphase (h generation hold)

variable {i : ℕ}

/-- A poll moves on to a phase in which it does not wait, or waits as before. -/
theorem Fine.set (h : Fine s) (hp : s.polls[i]? = some p) (p' : Poll) (hstored : p'.stored = p.stored)
    (hsuperseded : p'.superseded = p.superseded) (hwaits : p'.Waits s) (answers : List Answer)
    (hanswered : ∀ a ∈ answers, a.superseded = true → a.events = []) :
    Fine { s with polls := s.polls.set i p', answers := s.answers ++ answers } := by
  refine ⟨?_, h.acked, ?_, ?_⟩
  · intro h' hh'
    obtain ⟨hrecord, hhandled, ⟨q, hq, hpoll⟩, hgen⟩ := h.holder h' hh'
    refine ⟨hrecord, hhandled, ?_, hgen⟩
    rw [List.getElem?_set]
    split_ifs with hi hlt
    · rw [← hi, hp] at hq
      obtain rfl := Option.some.inj hq
      refine ⟨p', rfl, ?_⟩
      rw [hstored, hsuperseded]
      exact hpoll
    · rw [← hi] at hq
      exact absurd (List.getElem?_eq_some_iff.mp hq).1 hlt
    · exact ⟨q, hq, hpoll⟩
  · exact List.forall_mem_set h.waits hwaits
  · exact List.forall_mem_append.mpr ⟨h.answered, hanswered⟩

theorem Fine.done (h : Fine s) (hp : s.polls[i]? = some p) :
    Fine { s with polls := s.polls.set i { p with phase := .done } } := by
  have hset := h.set hp { p with phase := .done } rfl rfl (.reading fun _ _ hphase => nomatch hphase) []
    fun a ha => nomatch ha
  rw [List.append_nil] at hset
  exact hset

/-! ## Polls -/

variable {targets : List Target}

theorem register_pending {now : ℕ} {p : String × Event}
    (hp : p ∈ (register before targets now).1.pending) : ∃ k, before = some k ∧ p ∈ k.pending := by
  cases before with
  | none => cases hp
  | some k =>
    refine ⟨k, rfl, ?_⟩
    unfold register at hp
    dsimp only [Option.getD_some] at hp
    split_ifs at hp
    · exact List.mem_of_mem_filter hp
    · exact hp

/-- What a poll that registers holds was handled. -/
theorem handled_ok (h : Tidy s) (targets : List Target) (acks : List ℕ) (p : Poll) :
    (acks.foldl Handled.ack ⟨(register (Assoc.get s.memory (p.stored.library, p.stored.controller)) targets
      s.clock).1.pending, p.stored.watermarks, []⟩).OK p.stored.watermarks := by
  refine Handled.OK.acks ⟨fun _ => le_rfl, ?_, ?_⟩ acks
  · intro q hq
    obtain ⟨k, hk, hmem⟩ := register_pending hq
    have htidy := h.memory _ _ k hk
    exact htidy.late q.1 q.2 (Assoc.get_of_mem_nodup htidy.keys hmem)
  · intro x hx
    cases hx

theorem mem_superseding {q : Poll} (hq : q ∈ superseding s i p) :
    q = { p with phase := .inside, superseded := false } ∨
      (q ∈ s.polls ∧ q.stored.controller ≠ p.stored.controller) ∨
      ∃ q' ∈ s.polls, q = { q' with superseded := true } ∧ q'.stored.controller = p.stored.controller := by
  rcases List.mem_or_eq_of_mem_set hq with hold | rfl
  · obtain ⟨q', hq', rfl⟩ := List.mem_map.mp hold
    split_ifs with hsame
    · exact .inr (.inr ⟨q', hq', rfl, hsame⟩)
    · exact .inr (.inl ⟨hq', hsame⟩)
  · exact .inl rfl

theorem generation_set {s' : State} {key : String × ℕ} {c : Controller}
    (hmemory : s'.memory = Assoc.set s.memory key c) (library : String) (controller : ℕ) :
    s'.generation library controller =
      if (library, controller) = key then some c.pollGeneration else s.generation library controller := by
  unfold State.generation
  rw [hmemory, Assoc.get_set]
  split_ifs <;> rfl

theorem Fine.entered (h : Fine s) (hgood : Good s) (hp : s.polls[i]? = some p) {acks : List ℕ} {c : Controller}
    {handled : Handled} {todo : List (Source × Target)}
    (hentered : Entered (Assoc.get s.memory (p.stored.library, p.stored.controller)) targets acks c)
    (hhandled : handled.OK p.stored.watermarks)
    (hcurrent : (Assoc.get s.records p.stored.controller).map StoredController.watermarks =
      some p.stored.watermarks) :
    Fine { s with
      memory := Assoc.set s.memory (p.stored.library, p.stored.controller) c
      polls := superseding s i p
      holder := some ⟨i, { p.stored with watermarks := handled.watermarks }, targets, c.pollGeneration, todo,
        handled.triggers⟩ } := by
  obtain ⟨r₀, hr₀, hwatermarks⟩ := Option.map_eq_some_iff.mp hcurrent
  have hp' := List.mem_of_getElem? hp
  refine ⟨?_, h.acked, ?_, h.answered⟩
  · intro h' hh'
    obtain rfl := Option.some.inj hh'
    refine ⟨?_, hhandled.triggers, ?_, ?_⟩
    · intro r hr target
      obtain rfl : r₀ = r := Option.some.inj (hr₀.symm.trans hr)
      have hgrows := hhandled.grows target
      rw [← hwatermarks] at hgrows
      exact hgrows
    · have hlen := (List.getElem?_eq_some_iff.mp hp).1
      refine ⟨{ p with phase := .inside, superseded := false }, ?_, rfl, rfl, rfl⟩
      show (superseding s i p)[i]? = _
      unfold superseding
      rw [List.getElem?_set_self (by rw [List.length_map]; exact hlen)]
    · exact (generation_set rfl _ _).trans (if_pos rfl)
  · intro q hq
    rcases mem_superseding hq with rfl | ⟨hmem, hother⟩ | ⟨q', hmem, rfl, hsame⟩
    · exact .reading fun _ _ hphase => by cases hphase
    · -- another controller's poll waits as before
      intro generation hold hphase
      rw [generation_set rfl, if_neg fun hkey => hother (Prod.mk.inj hkey).2]
      exact h.waits q hmem generation hold hphase
    · -- an older poll of this controller is superseded by the new generation
      intro generation hold hphase
      obtain ⟨hsome, hgone⟩ := h.waits q' hmem generation hold hphase
      have howner := hgood.polls q' hmem
      rw [hsame, hgood.polls p hp'] at howner
      have hkey : (q'.stored.library, q'.stored.controller) = (p.stored.library, p.stored.controller) := by
        rw [hsame, Option.some.inj howner]
      rw [generation_set rfl, if_pos hkey]
      refine ⟨fun n hn => ?_, fun hn => by cases hn⟩
      obtain rfl := Option.some.inj hn
      rw [hentered.generation]
      cases hbefore : Assoc.get s.memory (p.stored.library, p.stored.controller) with
      | none =>
        have hnone := hgone (by unfold State.generation; rw [hkey, hbefore]; rfl)
        rw [hsame] at hnone
        cases hnone.symm.trans hr₀
      | some k =>
        have hle := (hsome k.pollGeneration (by unfold State.generation; rw [hkey, hbefore]; rfl)).1
        exact ⟨Nat.le_succ_of_le hle, fun _ => Nat.lt_succ_of_le hle⟩

theorem Fine.store (h : Fine s) (hgood : Good s) (hholder : s.holder = some section_)
    (hp : s.polls[section_.poll]? = some p) (hold : Bool) : Fine (store s section_ p hold) := by
  obtain ⟨hrecord, hhandled, ⟨p', hp', hcontroller, hlibrary, hsuperseded⟩, hgen⟩ := h.holder section_ hholder
  obtain rfl := Option.some.inj (hp.symm.trans hp')
  have hstanding := hgood.holder section_ hholder
  obtain ⟨r₀, hr₀⟩ := Option.isSome_iff_exists.mp hstanding.record
  refine ⟨?_, ?_, ?_, h.answered⟩
  · intro h' hh'
    cases hh'
  · intro x hx
    rcases List.mem_append.mp hx with hbefore | hnew
    · obtain ⟨hlt, hle⟩ := h.acked x hbefore
      refine ⟨hlt, fun r hr => ?_⟩
      rcases Assoc.get_of_set hr with ⟨hc, rfl⟩ | ⟨-, hr⟩
      · rw [← hc] at hr₀ hrecord
        exact (hle r₀ hr₀).trans (hrecord r₀ hr₀ _)
      · exact hle r hr
    · obtain ⟨t, ht, rfl⟩ := List.mem_map.mp hnew
      refine ⟨hgood.enrolled _ _ hstanding.owner, fun r hr => ?_⟩
      rw [get_store, if_pos rfl] at hr
      rw [← Option.some.inj hr]
      exact hhandled t ht
  · intro q hq
    rcases List.mem_or_eq_of_mem_set hq with hbefore | rfl
    · intro generation hold' hphase
      obtain ⟨hsome, hgone⟩ := h.waits q hbefore generation hold' hphase
      refine ⟨hsome, fun hn => ?_⟩
      have hnone := hgone hn
      rw [get_store, if_neg]
      · exact hnone
      · intro hc
        rw [hc] at hnone
        cases hnone.symm.trans hr₀
    · intro generation hold' hphase
      obtain ⟨rfl, -⟩ := Phase.waiting.inj hphase
      have hgen' : (Wake.store s section_ p hold).generation p.stored.library p.stored.controller =
          some section_.generation := by
        rw [hcontroller, hlibrary]
        exact hgen
      refine ⟨fun n hn => ?_, fun hn => ?_⟩
      · obtain rfl := Option.some.inj (hgen'.symm.trans hn)
        refine ⟨le_rfl, fun hs => ?_⟩
        rw [show p.superseded = false from hsuperseded] at hs
        cases hs
      · cases hgen'.symm.trans hn

variable {a : Act}

theorem Current.standing (h : Current s a) : Standing s a := by
  cases a with
  | enter =>
    intro p hp
    obtain ⟨r, hr, -⟩ := Option.map_eq_some_iff.mp (h p hp)
    rw [hr]
    rfl
  | _ => trivial

/-- Triggers keep the generations. -/
theorem Raised.generation {hi : ℕ} {after : Option Controller} (h : Raised draw hi before after) :
    after.map Controller.pollGeneration = before.map Controller.pollGeneration := by
  cases h with
  | none => rfl
  | some h => exact congrArg some h.generation

theorem step_fine (h : Fine s) (hgood : Good s) (htidy : Tidy s) (sha : Digest) (hcurrent : Current s a) :
    Fine (step sha s a) := by
  have hdoes := step_does sha s a
  generalize step sha s a = s' at hdoes
  cases hdoes with
  | raised _ _ _ _ _ _ hmemory hholder => exact h.same (fun _ _ => (hmemory _).generation) hholder
  | enroll hnone library secret => exact h.enroll hgood hnone sha library secret
  | deleteController hnone library c => exact h.deleteController hnone library c
  | deleteLibrary hnone library => exact h.deleteLibrary hgood hnone library
  | authenticate =>
    refine ⟨?_, h.acked, ?_, h.answered⟩
    · intro h' hh'
      obtain ⟨hrecord, hhandled, ⟨q, hq, hpoll⟩, hgen⟩ := h.holder h' hh'
      refine ⟨hrecord, hhandled, ⟨q, ?_, hpoll⟩, hgen⟩
      exact (List.getElem?_append_left (List.getElem?_eq_some_iff.mp hq).1).trans hq
    · exact List.forall_mem_snoc h.waits (.reading fun _ _ hphase => by cases hphase)
  | entered hp _ _ hentered hhandled =>
    exact h.entered hgood hp hentered (hhandled ▸ handled_ok htidy _ _ _) (hcurrent _ hp)
  | refused hp => exact h.done hp
  | store hholder hp hold => exact h.store hgood hholder hp hold
  | @answered _ p p' generation hold answers hp hphase hstored hsuperseded hphase' hnew =>
    obtain ⟨hsome, hgone⟩ := h.waits p (List.mem_of_getElem? hp) generation hold hphase
    refine h.set hp p' hstored hsuperseded ?_ answers ?_
    · intro generation' hold' hwaiting
      rcases hphase' with hdone | hagain
      · cases hdone.symm.trans hwaiting
      · obtain ⟨rfl, -⟩ := Phase.waiting.inj (hagain.symm.trans hwaiting)
        rw [hstored, hsuperseded]
        exact ⟨hsome, hgone⟩
    · intro a ha hs
      obtain ⟨hflag, c, hc, hempty, -⟩ := hnew a ha
      have hlt := (hsome c.pollGeneration (by unfold State.generation; rw [hc]; rfl)).2 (hflag.symm.trans hs)
      exact hempty (Nat.ne_of_gt hlt)
  | restart =>
    refine ⟨?_, h.acked, ?_, h.answered⟩
    · intro h' hh'
      cases hh'
    · intro p hp
      cases hp

/-! ## Runs -/

theorem reached_tidy (sha : Digest) (as : List Act) : Tidy (Run.exec (step sha) init as) :=
  Run.exec_inv_all (I := Tidy) (fun _ a h => step_tidy h sha a) as tidy_init

theorem reached_fine (sha : Digest) {as : List Act} (hmeets : Run.Meets (step sha) Current init as) :
    Fine (Run.exec (step sha) init as) ∧ Good (Run.exec (step sha) init as) ∧
      Tidy (Run.exec (step sha) init as) := by
  refine Run.exec_inv (I := fun s => Fine s ∧ Good s ∧ Tidy s) ?_ ⟨fine_init, good_init, tidy_init⟩ hmeets
  rintro s a ⟨hfine, hgood, htidy⟩ hcurrent
  exact ⟨step_fine hfine hgood htidy sha hcurrent, step_good hgood sha hcurrent.standing, step_tidy htidy sha a⟩

theorem enter_draws (sha : Digest) (s : State) (i : ℕ) (targets : List Target) (acks : List ℕ) :
    (step sha s (.enter i targets acks)).nextEvent = s.nextEvent := by
  dsimp only [step, enter]
  repeat' split
  all_goals rfl

/-- A poll that lists an event's target and does not acknowledge it leaves it as it is. -/
theorem Tidy.enter_keeps (h : Tidy s) (sha : Digest) {acks : List ℕ}
    {target : String} {e : Event} (he : s.pending library controller target = some e)
    (hack : e.id ∉ acks) (hlisted : ∃ t ∈ targets, t.id = target) :
    (step sha s (.enter i targets acks)).pending library controller target = some e := by
  have htidy := step_tidy h sha (.enter i targets acks)
  have hdraws := enter_draws sha s i targets acks
  cases hafter : (step sha s (.enter i targets acks)).pending library controller target with
  | none =>
    exfalso
    rcases h.taken he hafter with ⟨i', targets', acks', p, hact, -, -, hgone⟩ | hact | hact | hact
    · obtain ⟨-, rfl, rfl⟩ := Act.enter.inj hact
      obtain ⟨t, ht, hid⟩ := hlisted
      rcases hgone with hmem | hnone
      · exact hack hmem
      · exact hnone t ht hid
    all_goals cases hact
  | some e' =>
    by_contra hne
    -- a changed event would have an id that was not drawn
    have hfresh := h.fresh (fun hbefore => hne (hbefore.symm.trans he)) hafter
    obtain ⟨c, hc, hget⟩ := Option.bind_eq_some_iff.mp hafter
    have hdrawn := (htidy.memory library controller c hc).drawn target e' hget
    omega

/-- A record is the one that was there, a new controller's, or the one that the holder of the lock wrote. -/
theorem step_record (hr : Assoc.get (step sha s a).records c = some r) :
    Assoc.get s.records c = some r ∨ c = s.nextController ∨
      ∃ h, s.holder = some h ∧ c = h.stored.controller ∧ r = { h.stored with targets := h.targets } := by
  have hdoes := step_does sha s a
  generalize step sha s a = s' at hdoes hr
  cases hdoes with
  | enroll =>
    unfold enroll at hr
    dsimp only at hr
    split_ifs at hr
    · exact .inl hr
    · rcases Assoc.get_of_set hr with ⟨hc, -⟩ | ⟨-, hr⟩
      · exact .inr (.inl hc)
      · exact .inl hr
  | deleteController =>
    unfold deleteController at hr
    dsimp only at hr
    split_ifs at hr <;> try exact .inl hr
    all_goals
      exact .inl (Assoc.get_of_erase hr)
  | deleteLibrary =>
    have hget := (Assoc.get_foldl_erase _ s.records c).symm.trans hr
    split_ifs at hget
    exact .inl hget
  | store hholder =>
    unfold store at hr
    rcases Assoc.get_of_set hr with ⟨hc, hr⟩ | ⟨-, hr⟩
    · exact .inr (.inr ⟨_, hholder, hc, hr⟩)
    · exact .inl hr
  | _ => exact .inl hr

/-- A record's times only grow. -/
theorem Fine.watermark_le (h : Fine s) (hgood : Good s) {r' : StoredController}
    (hr : Assoc.get s.records c = some r) (hr' : Assoc.get (step sha s a).records c = some r') (target : String) :
    r.watermark target ≤ r'.watermark target := by
  rcases step_record hr' with hsame | hnew | ⟨section_, hholder, rfl, rfl⟩
  · rw [Option.some.inj (hr.symm.trans hsame)]
  · exact absurd hnew (hgood.next_fresh hr)
  · exact (h.holder section_ hholder).record r hr target

/-- A trigger that was acknowledged raises nothing. -/
theorem Fine.look_acked (h : Fine s) (hgood : Good s) (sha : Digest) (hholder : s.holder = some section_)
    {source : Source} {target : Target} {todo : List (Source × Target)}
    (htodo : section_.todo = (source, target) :: todo)
    (online : Bool) {first last : ℕ} (hacked : (section_.stored.controller, target.id, source, last) ∈ s.acked) :
    (step sha s (.look section_.poll online (some (first, last)))).memory = s.memory := by
  obtain ⟨r, hr⟩ := Option.isSome_iff_exists.mp (hgood.holder section_ hholder).record
  have hle := (h.acked _ hacked).2 r hr
  have hahead := (h.holder section_ hholder).record r hr target.id
  have hhandled : ¬ (!online && decide (section_.stored.watermark target.id < last)) = true := by
    intro hmissed
    have hlt := of_decide_eq_true (Bool.and_eq_true_iff.mp hmissed).2
    have hle' : last ≤ r.watermark target.id := hle
    omega
  dsimp only [step]
  rw [hholder]
  dsimp only
  rw [htodo]
  dsimp only
  rw [if_pos rfl]
  unfold look
  dsimp only
  cases Assoc.get s.memory (section_.stored.library, section_.stored.controller) with
  | none => rfl
  | some c =>
    dsimp only
    rw [if_neg hhandled]

/-- A controller registers, a message arrives for its target, and its next poll acknowledges the event; after a
restart it registers again, with the message's trigger still stored. -/
def sampleWake : List Act :=
  [.enroll "lib" "a", .authenticate 0 "a", .enter 0 [sampleTarget] [], .look 0 false none, .look 0 false none,
   .store 0 true,
    .notifyInbox sampleTarget.inbox 5 [], .answer 0, .authenticate 0 "a", .enter 1 [sampleTarget] [0],
    .store 1 false, .restart, .authenticate 0 "a", .enter 0 [sampleTarget] []]

end DenEdge.Wake
