import DenEdge.Media.Model

/-!
# A member's lease and the authority it was opened on

A lease that a member opened is of its library's authority, or of one that was replaced since the library's leases
were last invalidated. An admission knows every authority there was since it started, and every one that had been
replaced and not invalidated when it did: so without a slot it is only answered for one of these.
-/

namespace DenEdge.Media

/-! ## What is said of authorities -/

/-- The part of a state that says who a member is, and was. -/
structure View where
  authority : List (String × String)
  registered : List String
  generation : ℕ
  former : List Claim
  replaced : List Claim
  ended : List Claim

def State.view (s : State) : View := ⟨s.authority, s.registered, s.generation, s.former, s.replaced, s.ended⟩

variable {v v' : View} {s s' : State}

/-- The claim is its library's member authority. -/
def View.Holds (v : View) (c : Claim) : Prop := Assoc.get v.authority c.library = some c.proof

/-- A member's lease is of an authority, or of one that was replaced and not invalidated; a guest's has a slot. -/
structure EntryOK (v : View) (e : Key × Lease) : Prop where
  guest : e.1.2 = .guest → e.2.slot.isSome
  member : e.1.2 = .member → ∀ c, e.2.member = some c → v.Holds c ∨ c ∈ v.former

/-- Before an admission has been refused. -/
def Phase.Early : Phase → Prop
  | .asking | .proving | .loaded _ | .proved _ => True
  | _ => False

structure Admission.OK (v : View) (a : Admission) : Prop where
  loaded : ∀ g, a.phase = .loaded g → g ≤ v.generation
  proved : ∀ g, a.phase = .proved g → g ≤ v.generation ∧
    ∃ c, a.claim = some c ∧ c ∈ a.during ∧ (g = v.generation → v.Holds c ∨ c ∈ v.former)
  sees : a.phase ≠ .done → ∀ c, v.Holds c → c ∈ a.during
  knew : a.phase ≠ .done → ∀ c ∈ v.former, c ∈ a.during ∨ c ∈ a.unanswered
  early : a.phase.Early → a.wasRefused = false
  apart : a.phase ≠ .done → ∀ c ∈ a.unanswered, c ∉ a.answered

/-- Without a slot, only for an authority of some moment of the admission, or one that was replaced when it
started by a change that had not invalidated, and that was not answered. -/
def Yes.OK (y : Yes) : Prop :=
  y.slot = none → y.admission.wasRefused = false ∧
    ∃ c, y.admission.claim = some c ∧
      (c ∈ y.admission.during ∨ c ∈ y.admission.unanswered ∧ c ∉ y.admission.answered)

structure Change.OK (v : View) (ch : Change) : Prop where
  written : ∀ c, ch.stage = .written (some c) → c ∈ v.replaced ∧ c.library = ch.library
  invalidated : ∀ c, ch.stage = .invalidated (some c) → c ∈ v.replaced ∧ c ∉ v.former

/-- What was replaced does not come back. -/
structure View.OK (v : View) : Prop where
  replaced : ∀ c ∈ v.replaced, ¬ v.Holds c ∧ (Assoc.get v.authority c.library = none ∨ c.library ∈ v.registered)
  ended : ∀ c ∈ v.ended, c ∈ v.replaced ∧ c ∉ v.former

structure Proven (s : State) : Prop where
  leases : ∀ e ∈ s.leases, EntryOK s.view e
  admissions : ∀ a ∈ s.admissions, a.OK s.view
  yes : ∀ y ∈ s.yes, y.OK
  changes : ∀ ch ∈ s.changes, ch.OK s.view
  view : s.view.OK

theorem proven_start (authority : List (String × String)) (registered : List String) :
    Proven (start authority registered) := by
  refine ⟨?_, ?_, ?_, ?_, ?_, ?_⟩ <;> simp [start, State.view]

/-! ## Admissions -/

variable {a : Admission} {i : ℕ}

/-- A phase before which nothing is known, or after which nothing is asked. -/
theorem Admission.OK.plain (h : a.OK v) {phase : Phase} (hdone : a.phase ≠ .done)
    (hloaded : ∀ g, phase ≠ .loaded g) (hproved : ∀ g, phase ≠ .proved g) (hearly : phase.Early → a.phase.Early) :
    ({ a with phase := phase } : Admission).OK v where
  loaded := fun g hphase => absurd hphase (hloaded g)
  proved := fun g hphase => absurd hphase (hproved g)
  sees := fun _ => h.sees hdone
  knew := fun _ => h.knew hdone
  early := fun hphase => h.early (hearly hphase)
  apart := fun _ => h.apart hdone

theorem Admission.OK.done : ({ a with phase := .done } : Admission).OK v where
  loaded := fun _ hphase => nomatch hphase
  proved := fun _ hphase => nomatch hphase
  sees := fun hne => absurd rfl hne
  knew := fun hne => absurd rfl hne
  early := fun hearly => absurd hearly id
  apart := fun hne => absurd rfl hne

/-- A step that changes nothing about authorities. -/
theorem Proven.frame (h : Proven s) (hview : s'.view = s.view) (hleases : ∀ e ∈ s'.leases, EntryOK s.view e)
    (hadmissions : ∀ a ∈ s'.admissions, a.OK s.view) (hyes : ∀ y ∈ s'.yes, y.OK)
    (hchanges : ∀ ch ∈ s'.changes, ch.OK s.view) : Proven s' := by
  refine ⟨?_, ?_, hyes, ?_, ?_⟩
  · rw [hview]
    exact hleases
  · rw [hview]
    exact hadmissions
  · rw [hview]
    exact hchanges
  · rw [hview]
    exact h.view

theorem Proven.setAdmission (h : Proven s) (ha : a.OK s.view) : Proven (s.setAdmission i a) := by
  refine h.frame rfl h.leases ?_ h.yes h.changes
  exact List.forall_mem_set h.admissions ha

theorem Proven.answer (h : Proven s) {slot : Option ℕ} (hyes : (Yes.mk a slot).OK) :
    Proven (s.answer i a slot) := by
  refine h.frame rfl h.leases ?_ ?_ h.changes
  · exact List.forall_mem_set h.admissions Admission.OK.done
  · exact List.forall_mem_snoc h.yes hyes

/-! ## Slots and leases -/

/-- Slots come and go beside what is said of authorities. -/
structure Beside (s s' : State) : Prop where
  view : s'.view = s.view
  clock : s'.clock = s.clock
  leases : s'.leases = s.leases
  admissions : s'.admissions = s.admissions
  changes : s'.changes = s.changes
  yes : s'.yes = s.yes

theorem Beside.refl (s : State) : Beside s s := ⟨rfl, rfl, rfl, rfl, rfl, rfl⟩

theorem Beside.trans {s'' : State} (h : Beside s s') (h' : Beside s' s'') : Beside s s'' :=
  ⟨h'.view.trans h.view, h'.clock.trans h.clock, h'.leases.trans h.leases, h'.admissions.trans h.admissions,
    h'.changes.trans h.changes, h'.yes.trans h.yes⟩

theorem Beside.proven (h : Beside s s') (hs : Proven s) : Proven s' := by
  refine hs.frame h.view ?_ ?_ ?_ ?_
  · rw [h.leases]
    exact hs.leases
  · rw [h.admissions]
    exact hs.admissions
  · rw [h.yes]
    exact hs.yes
  · rw [h.changes]
    exact hs.changes

theorem release_beside (s : State) (k : ℕ) : Beside s (s.release k) := by
  unfold State.release
  split
  · split_ifs <;> exact ⟨rfl, rfl, rfl, rfl, rfl, rfl⟩
  · exact Beside.refl s

theorem drop_beside (s : State) (lease : Lease) : Beside s (s.drop lease) := by
  unfold State.drop
  split
  · exact release_beside s _
  · exact Beside.refl s

theorem drops_beside (gone : List (Key × Lease)) (s : State) :
    Beside s (gone.foldl (fun s e => s.drop e.2) s) := by
  induction gone generalizing s with
  | nil => exact Beside.refl s
  | cons e gone ih => exact (drop_beside s e.2).trans (ih _)

theorem retain_beside (s : State) (keep : Key × Lease → Bool) :
    Beside { s with leases := s.leases.filter keep } (s.retain keep) :=
  drops_beside _ _

theorem Proven.retain (h : Proven s) (keep : Key × Lease → Bool) : Proven (s.retain keep) := by
  refine (retain_beside s keep).proven (h.frame rfl ?_ h.admissions h.yes h.changes)
  intro e he
  exact h.leases e (List.mem_of_mem_filter he)

theorem Proven.expire (h : Proven s) (now : ℕ) : Proven (s.expire now) := h.retain _

theorem insert_beside (s : State) (key : Key) (lease : Lease) :
    Beside { s with leases := Assoc.set s.leases key lease } (s.insert key lease) := by
  unfold State.insert
  split
  next old _ =>
    have hdrop := drop_beside s old
    refine ⟨hdrop.view, hdrop.clock, ?_, hdrop.admissions, hdrop.changes, hdrop.yes⟩
    show Assoc.set (s.drop old).leases key lease = _
    rw [hdrop.leases]
  · exact Beside.refl _

variable {now : ℕ} {proof : Option String}
variable {lease : Lease} {replaced : Option Claim}

section

variable (h : Proven s)
include h

theorem Proven.insert {key : Key} (hlease : EntryOK s.view (key, lease)) :
    Proven (s.insert key lease) := by
  refine (insert_beside s key lease).proven (h.frame rfl ?_ h.admissions h.yes h.changes)
  intro e he
  rcases Assoc.mem_set he with hold | rfl
  · exact h.leases e hold
  · exact hlease

/-- A lease that is taken again lasts longer. -/
theorem Proven.renew {key : Key} (hget : Assoc.get s.leases key = some lease) (until_ : ℕ) :
    Proven { s with leases := Assoc.set s.leases key { lease with until_ := until_ } } := by
  refine h.frame rfl ?_ h.admissions h.yes h.changes
  intro e he
  rcases Assoc.mem_set he with hold | rfl
  · exact h.leases e hold
  · obtain ⟨hguest, hmember⟩ := h.leases _ (Assoc.mem_of_get hget)
    exact ⟨hguest, hmember⟩

/-! ## Steps of an admission -/

theorem Proven.ask (ha : a ∈ s.admissions) (hphase : a.phase = .asking) : Proven (ask s i a now) := by
  have hexpire := h.expire now
  have hsame := retain_beside s fun e => !e.2.isOver s.slots now
  have hok : a.OK (s.expire now).view := by
    rw [show (s.expire now).view = s.view from hsame.view]
    exact h.admissions a ha
  have hlive : a.phase ≠ .done := by simp [hphase]
  have hearly : a.phase.Early := by simp [hphase, Phase.Early]
  unfold Media.ask
  dsimp only
  split
  next lease hlease =>
    obtain ⟨hget, htakes⟩ := Option.filter_eq_some_iff.mp hlease
    obtain ⟨hguest, hmember⟩ := hexpire.leases _ (Assoc.mem_of_get hget)
    refine (hexpire.renew hget _).answer ?_
    intro hslot
    change lease.slot = none at hslot
    -- a guest's lease has a slot, so this one is a member's, with this very claim
    cases hclaim : a.claim with
    | none =>
      have hsome := hguest (by simp [hclaim])
      rw [show lease.slot = none from hslot] at hsome
      cases hsome
    | some c =>
      rw [hclaim] at htakes
      have hsame : lease.member = some c := by simpa using htakes
      refine ⟨hok.early hearly, c, rfl, ?_⟩
      rcases hmember (by simp [hclaim]) c hsame with hholds | hformer
      · exact .inl (hok.sees hlive c hholds)
      · exact (hok.knew hlive c hformer).imp_right fun hold => ⟨hold, hok.apart hlive c hold⟩
  next => exact hexpire.setAdmission (hok.plain hlive (nofun) (nofun) fun _ => hearly)

theorem Proven.publish {generation : ℕ} (ha : a ∈ s.admissions)
    (hphase : a.phase = .proved generation) : Proven (publish s i a generation now) := by
  have hok := h.admissions a ha
  have hlive : a.phase ≠ .done := by simp [hphase]
  have hearly : a.phase.Early := by simp [hphase, Phase.Early]
  obtain ⟨-, c, hclaim, hduring, hcurrent⟩ := hok.proved generation hphase
  unfold Media.publish
  split_ifs with hgeneration
  · exact h.setAdmission (hok.plain hlive (nofun) (nofun) fun _ => hearly)
  · have hentry : EntryOK s.view ((a.bucket, Side.member), ⟨now + LEASE_IDLE_MS, none, a.claim⟩) := by
      refine ⟨fun hside => (nomatch hside), fun _ c' hc' => ?_⟩
      obtain rfl : c = c' := Option.some.inj (hclaim.symm.trans hc')
      exact hcurrent (not_not.mp hgeneration)
    exact (h.insert hentry).answer fun _ => ⟨hok.early hearly, c, hclaim, .inl hduring⟩

/-- The guest lease is joined, with its slot; or only what is over is gone. -/
theorem Proven.join (i now : ℕ) (a : Admission) :
    (∃ lease, (∃ k, lease.slot = some k) ∧ Assoc.get (s.expire now).leases (a.bucket, .guest) = some lease ∧
      join s i a now = .inl ({ s.expire now with
        leases := Assoc.set (s.expire now).leases (a.bucket, .guest)
          { lease with until_ := now + LEASE_IDLE_MS } }.answer i a lease.slot)) ∨
    (Assoc.get (s.expire now).leases (a.bucket, .guest) = none ∧ join s i a now = .inr (s.expire now)) := by
  unfold Media.join
  dsimp only
  cases hget : Assoc.get (s.expire now).leases (a.bucket, .guest) with
  | none => exact .inr ⟨rfl, rfl⟩
  | some lease =>
    obtain ⟨hguest, -⟩ := (h.expire now).leases _ (Assoc.mem_of_get hget)
    exact .inl ⟨lease, Option.isSome_iff_exists.mp (hguest rfl), rfl, rfl⟩

theorem Proven.joined (hslot : ∃ k, lease.slot = some k)
    (hget : Assoc.get (s.expire now).leases (a.bucket, .guest) = some lease) :
    Proven ({ s.expire now with
      leases := Assoc.set (s.expire now).leases (a.bucket, .guest)
        { lease with until_ := now + LEASE_IDLE_MS } }.answer i a lease.slot) := by
  refine ((h.expire now).renew hget _).answer ?_
  intro hnone
  obtain ⟨k, hk⟩ := hslot
  cases hk.symm.trans hnone

theorem Proven.look (ha : a ∈ s.admissions) (hphase : a.phase = .refused) : Proven (look s i a now) := by
  unfold Media.look
  rcases h.join i now a with ⟨lease, hslot, hget, hjoin⟩ | ⟨-, hjoin⟩
  · rw [hjoin]
    exact h.joined hslot hget
  · rw [hjoin]
    have hok : a.OK (s.expire now).view := by
      rw [show (s.expire now).view = s.view from (retain_beside s _).view]
      exact h.admissions a ha
    exact (h.expire now).setAdmission (hok.plain (by simp [hphase]) (nofun) (nofun) fun hearly =>
      absurd hearly id)

theorem Proven.acquire (ha : a ∈ s.admissions) (hphase : a.phase = .acquiring) : Proven (acquire s i a) := by
  have hok := h.admissions a ha
  unfold Media.acquire
  split_ifs
  · exact h.setAdmission Admission.OK.done
  · have hbeside : Beside s { s with available := s.available - 1, slots := s.slots ++ [Slot.mk true 0] } :=
      ⟨rfl, rfl, rfl, rfl, rfl, rfl⟩
    exact (hbeside.proven h).setAdmission (hok.plain (by simp [hphase]) (nofun) (nofun) fun hearly =>
      absurd hearly id)

theorem Proven.settle (i slot now : ℕ) (a : Admission) : Proven (settle s i a slot now) := by
  unfold Media.settle
  rcases h.join i now a with ⟨lease, hslot, hget, hjoin⟩ | ⟨-, hjoin⟩
  · rw [hjoin]
    exact (release_beside _ slot).proven (h.joined hslot hget)
  · rw [hjoin]
    refine ((h.expire now).insert ?_).answer fun hnone => (nomatch hnone)
    exact ⟨fun _ => rfl, fun hside => (nomatch hside)⟩

end

/-! ## Changes -/

theorem get_change (s : State) (library : String) (proof : Option String) (other : String) :
    Assoc.get (s.change library proof).authority other =
      if other = library then proof else Assoc.get s.authority other := by
  cases proof with
  | none => exact Assoc.get_erase _ _ _
  | some p => exact Assoc.get_set _ _ _ _

variable {c : Claim} {library : String} {ch : Change}

/-- The claim that a change replaces. -/
theorem mem_old : c ∈ (Assoc.get s.authority library).toList.map (Claim.mk library) ↔
    s.view.Holds c ∧ c.library = library := by
  constructor
  · intro hc
    obtain ⟨old, hget, rfl⟩ := List.mem_map.mp hc
    exact ⟨Option.mem_toList.mp hget, rfl⟩
  · rintro ⟨hc, rfl⟩
    exact List.mem_map.mpr ⟨c.proof, Option.mem_toList.mpr hc, rfl⟩

/-- A change of the authority: what held holds, or was replaced just now. -/
theorem change_holds (hc : s.view.Holds c) :
    (s.change library proof).view.Holds c ∨ c ∈ (s.change library proof).former := by
  by_cases hlib : c.library = library
  · exact .inr (List.mem_append_left _ (mem_old.mpr ⟨hc, hlib⟩))
  · refine .inl ((get_change s library proof c.library).trans ?_)
    rw [if_neg hlib]
    exact hc

theorem holds_change (hc : (s.change library proof).view.Holds c) :
    (s.view.Holds c ∧ c.library ≠ library) ∨ (c.library = library ∧ proof = some c.proof) := by
  have hget := (get_change s library proof c.library).symm.trans hc
  split_ifs at hget with hlib
  · exact .inr ⟨hlib, hget⟩
  · exact .inl ⟨hget, hlib⟩

theorem mem_former_change (proof : Option String) (hc : c ∈ (s.change library proof).former) :
    (s.view.Holds c ∧ c.library = library) ∨ c ∈ s.former :=
  (List.mem_append.mp hc).imp_left mem_old.mp

theorem Admission.OK.change (h : a.OK s.view) (library : String) (proof : Option String) :
    ({ a with during := a.during ++ proof.toList.map (Claim.mk library) } : Admission).OK
      (s.change library proof).view := by
  refine ⟨h.loaded, ?_, ?_, ?_, h.early, h.apart⟩
  · intro g hphase
    obtain ⟨hle, c, hclaim, hduring, hcurrent⟩ := h.proved g hphase
    refine ⟨hle, c, hclaim, List.mem_append_left _ hduring, fun hg => ?_⟩
    rcases hcurrent hg with hholds | hformer
    · exact change_holds hholds
    · exact .inr (List.mem_append_right _ hformer)
  · intro hlive c hc
    rcases holds_change hc with ⟨hholds, -⟩ | ⟨rfl, rfl⟩
    · exact List.mem_append_left _ (h.sees hlive c hholds)
    · exact List.mem_concat_self
  · intro hlive c hc
    rcases mem_former_change proof hc with ⟨hholds, -⟩ | hformer
    · exact .inl (List.mem_append_left _ (h.sees hlive c hholds))
    · exact (h.knew hlive c hformer).imp_left (List.mem_append_left _)

/-- A claim that was replaced does not hold, so no later change replaces it again. -/
theorem View.OK.stays_out (h : s.view.OK) (proof : Option String) (hc : c ∈ s.replaced) (hnot : c ∉ s.former) :
    c ∉ (s.change library proof).former := by
  intro hformer
  rcases mem_former_change proof hformer with ⟨hholds, -⟩ | hold
  · exact (h.replaced c hc).1 hholds
  · exact hnot hold

/-- The authority of a library is replaced, by none or by one that no earlier authority of the library can be. -/
theorem View.OK.change (h : s.view.OK)
    (hnew : ∀ p, proof = some p → library ∈ s.registered ∧ Assoc.get s.authority library ≠ some p ∧
      ∀ c ∈ s.replaced, c.library ≠ library) : (s.change library proof).view.OK := by
  refine ⟨fun c hc => ?_, fun c hc => ?_⟩
  · have hget := get_change s library proof c.library
    by_cases hlib : c.library = library
    · rw [if_pos hlib] at hget
      cases hproof : proof with
      | none =>
        rw [hproof] at hget hc
        exact ⟨fun hholds => (nomatch hget.symm.trans hholds), .inl hget⟩
      | some p =>
        obtain ⟨hregistered, hne, hfresh⟩ := hnew p hproof
        rw [hproof] at hget hc
        rcases List.mem_append.mp hc with hold | hreplaced
        · refine ⟨fun hholds => hne ?_, .inr (hlib ▸ hregistered)⟩
          rw [← hlib, ← hget.symm.trans hholds |>.symm]
          exact (mem_old.mp hold).1
        · exact absurd hlib (hfresh c hreplaced)
    · rw [if_neg hlib] at hget
      rcases List.mem_append.mp hc with hold | hreplaced
      · exact absurd (mem_old.mp hold).2 hlib
      · obtain ⟨hnot, hwhere⟩ := h.replaced c hreplaced
        exact ⟨fun hholds => hnot (hget.symm.trans hholds), hwhere.imp_left hget.trans⟩
  · obtain ⟨hmem, hnot⟩ := h.ended c hc
    exact ⟨List.mem_append_right _ hmem, h.stays_out proof hmem hnot⟩

theorem Change.OK.change (h : ch.OK s.view) (hview : s.view.OK) (library : String) (proof : Option String) :
    ch.OK (s.change library proof).view := by
  refine ⟨fun c hc => ?_, fun c hc => ?_⟩
  · obtain ⟨hmem, hlib⟩ := h.written c hc
    exact ⟨List.mem_append_right _ hmem, hlib⟩
  · obtain ⟨hmem, hnot⟩ := h.invalidated c hc
    exact ⟨List.mem_append_right _ hmem, hview.stays_out proof hmem hnot⟩

theorem Proven.change (h : Proven s)
    (hnew : ∀ p, proof = some p → library ∈ s.registered ∧ Assoc.get s.authority library ≠ some p ∧
      ∀ c ∈ s.replaced, c.library ≠ library) : Proven (s.change library proof) := by
  refine ⟨?_, ?_, h.yes, fun ch hch => (h.changes ch hch).change h.view library proof, h.view.change hnew⟩
  · intro e he
    obtain ⟨hguest, hmember⟩ := h.leases e he
    refine ⟨hguest, fun hside c hc => ?_⟩
    rcases hmember hside c hc with hholds | hformer
    · exact change_holds hholds
    · exact .inr (List.mem_append_right _ hformer)
  · intro a ha
    obtain ⟨b, hb, rfl⟩ := List.mem_map.mp ha
    exact (h.admissions b hb).change library proof

theorem Proven.setChange (h : Proven s) {j : ℕ} (hch : ch.OK s.view) : Proven (s.setChange j ch) := by
  refine h.frame rfl h.leases h.admissions h.yes ?_
  exact List.forall_mem_set h.changes hch

/-! ## Invalidation -/

theorem view_invalidate (s : State) (library : String) : (s.invalidate library).view =
    { s.view with generation := s.generation + 1, former := s.former.filter (·.library ≠ library) } :=
  (retain_beside _ _).view

theorem mem_former_invalidate : c ∈ (s.invalidate library).former ↔ c ∈ s.former ∧ c.library ≠ library := by
  have hformer : (s.invalidate library).former = _ := congrArg View.former (view_invalidate s library)
  rw [hformer]
  simp

/-- The library's members lose their leases, and every admission that has read the generation is to prove its
claim again. -/
theorem Proven.invalidate (h : Proven s) (library : String) : Proven (s.invalidate library) := by
  refine (retain_beside _ _).proven ⟨?_, ?_, h.yes, ?_, ?_, ?_⟩
  · intro e he
    obtain ⟨hmem, hkeep⟩ := List.mem_filter.mp he
    obtain ⟨hguest, hmember⟩ := h.leases e hmem
    refine ⟨hguest, fun hside c hc => (hmember hside c hc).imp_right fun hformer => ?_⟩
    -- a lease of another library is left, and so is what was replaced there
    refine List.mem_filter.mpr ⟨hformer, ?_⟩
    rw [hc] at hkeep
    exact hkeep
  · intro a ha
    have hok := h.admissions a ha
    refine ⟨fun g hphase => (hok.loaded g hphase).trans (Nat.le_succ _), fun g hphase => ?_, hok.sees, ?_,
      hok.early, hok.apart⟩
    · obtain ⟨hle, c, hclaim, hduring, -⟩ := hok.proved g hphase
      refine ⟨hle.trans (Nat.le_succ _), c, hclaim, hduring, fun hg => ?_⟩
      change g ≤ s.generation at hle
      change g = s.generation + 1 at hg
      omega
    · exact fun hlive c hc => hok.knew hlive c (List.mem_of_mem_filter hc)
  · intro ch hch
    obtain ⟨hwritten, hinvalidated⟩ := h.changes ch hch
    refine ⟨hwritten, fun c hc => ?_⟩
    obtain ⟨hmem, hnot⟩ := hinvalidated c hc
    exact ⟨hmem, fun hformer => hnot (List.mem_of_mem_filter hformer)⟩
  · exact h.view.replaced
  · intro c hc
    obtain ⟨hmem, hnot⟩ := h.view.ended c hc
    exact ⟨hmem, fun hformer => hnot (List.mem_of_mem_filter hformer)⟩

/-! ## Steps of a change -/

/-- No lease and no request depends on which libraries were registered, or on which changes were answered. -/
theorem Proven.record (h : Proven s) {registered : List String} {ended : List Claim}
    (hview : ({ s with registered := registered, ended := ended } : State).view.OK) :
    Proven { s with registered := registered, ended := ended } where
  leases := fun e he => ⟨(h.leases e he).guest, (h.leases e he).member⟩
  admissions := fun a ha =>
    have hok := h.admissions a ha
    { hok with }
  yes := h.yes
  changes := fun ch hch => ⟨(h.changes ch hch).written, (h.changes ch hch).invalidated⟩
  view := hview

/-- What the store answers a registration: nothing is replaced, or the legacy proof is, which was not replaced
before. -/
theorem Proven.register (h : Proven s) {proof : String}
    (hregister : register s library proof = some (s', replaced)) :
    Proven s' ∧ ∀ c, replaced = some c → c ∈ s'.replaced ∧ c.library = library := by
  have hmarked : Proven { s with registered := library :: s.registered } := by
    refine h.record ⟨fun c hc => ?_, h.view.ended⟩
    obtain ⟨hnot, hwhere⟩ := h.view.replaced c hc
    exact ⟨hnot, hwhere.imp_right (List.mem_cons_of_mem _)⟩
  unfold Media.register at hregister
  cases hget : Assoc.get s.authority library with
  | none => simp [hget] at hregister
  | some old =>
    rw [hget] at hregister
    dsimp only at hregister
    split_ifs at hregister with hin hsame hsame
    · cases hregister
      exact ⟨h, fun _ hnone => by cases hnone⟩
    · cases hregister
      exact ⟨hmarked, fun _ hnone => by cases hnone⟩
    · cases hregister
      refine ⟨hmarked.change ?_, ?_⟩
      · rintro p ⟨⟩
        refine ⟨List.mem_cons_self, ?_, fun c hc hlib => ?_⟩
        · change Assoc.get s.authority library ≠ some proof
          rw [hget]
          exact fun heq => hsame (Option.some.inj heq)
        -- the library has an authority and was not registered, so none of its authorities was replaced
        · rcases (h.view.replaced c hc).2 with hnone | hregistered
          · rw [hlib] at hnone
            cases hget.symm.trans hnone
          · exact hin (hlib ▸ hregistered)
      · rintro c ⟨⟩
        exact ⟨List.mem_append_left _ (mem_old.mpr ⟨hget, rfl⟩), rfl⟩

theorem Proven.retire (h : Proven s) {replaced : Claim} (hretire : retire s library = some (s', replaced)) :
    Proven s' ∧ replaced ∈ s'.replaced ∧ replaced.library = library := by
  obtain ⟨old, hget, heq⟩ := Option.map_eq_some_iff.mp hretire
  cases heq
  exact ⟨h.change fun _ hnone => (nomatch hnone), List.mem_append_left _ (mem_old.mpr ⟨hget, rfl⟩), rfl⟩

theorem Change.OK.of_stage (hwritten : ∀ c, ch.stage ≠ .written (some c))
    (hinvalidated : ∀ c, ch.stage ≠ .invalidated (some c)) : ch.OK v :=
  ⟨fun c hc => absurd hc (hwritten c), fun c hc => absurd hc (hinvalidated c)⟩

theorem Change.OK.of_written (h : ∀ c, replaced = some c → c ∈ v.replaced ∧ c.library = ch.library) :
    ({ ch with stage := .written replaced } : Change).OK v :=
  ⟨fun c hc => h c (Stage.written.inj hc), fun _ hc => (nomatch hc)⟩

/-- A change that was written is invalidated: what it replaced is no longer known to any lease. -/
theorem Proven.settles (h : Proven s) {j : ℕ} (hch : ch ∈ s.changes) (hstage : ch.stage = .written replaced) :
    Proven ((s.invalidate ch.library).setChange j { ch with stage := .invalidated replaced }) := by
  refine (h.invalidate ch.library).setChange ⟨fun _ hc => (nomatch hc), fun c hc => ?_⟩
  obtain ⟨hmem, hlib⟩ := (h.changes ch hch).written c (hstage.trans (congrArg _ (Stage.invalidated.inj hc)))
  refine ⟨?_, fun hformer => (mem_former_invalidate.mp hformer).2 hlib⟩
  rw [view_invalidate]
  exact hmem

theorem mem_current : c ∈ s.current ↔ s.view.Holds c := by
  constructor
  · intro hc
    obtain ⟨a, ha, rfl⟩ := List.mem_map.mp hc
    have hget := (List.mem_filter.mp ha).2
    exact of_decide_eq_true (p := Assoc.get s.authority a.1 = some a.2) hget
  · intro hc
    refine List.mem_map.mpr ⟨(c.library, c.proof), List.mem_filter.mpr ⟨Assoc.mem_of_get hc, ?_⟩, rfl⟩
    exact decide_eq_true (p := Assoc.get s.authority c.library = some c.proof) hc

theorem isHouseholdMember_spec {claim : Option Claim} (h : s.isHouseholdMember claim = true) :
    ∃ c, claim = some c ∧ s.view.Holds c := by
  cases claim with
  | none => cases h
  | some c => exact ⟨c, rfl, of_decide_eq_true (p := Assoc.get s.authority c.library = some c.proof) h⟩

theorem step_admission {e : Event} (he : e.admission = some i) :
    step s e = s ∨ ∃ a, s.admissions[i]? = some a ∧ step s e = admissionStep s i a e := by
  cases ha : s.admissions[i]? with
  | none =>
    left
    cases e <;> cases he <;> simp only [step, Event.admission, Option.bind_some, ha, Option.map_none]
  | some a =>
    refine .inr ⟨a, rfl, ?_⟩
    cases e <;> cases he <;> simp only [step, Event.admission, Option.bind_some, ha, Option.map_some]

end DenEdge.Media
