import DenEdge.Grants.Ends

/-!
# A sweep ends what has ended

A sweep collects the grants it finds ended and calls `end_sessions` for them after its scan. A grant that ended
stays ended, unless an update, a new code or a redeem brings it back: of a grant that none of these brings back
while it is collected, nothing is ended that is live. What the record says of the kill, and what a sweep does
about it, holds in every run.
-/

namespace DenEdge.Grants

variable {sha : Digest} {configured : Bool} {s s' : State}

/-! ## Ended grants -/

theorem Record.endedAt_mono {r : Record} {now now' : ℕ} (hle : now ≤ now') (h : (r.endedAt now).isSome = true) :
    (r.endedAt now').isSome = true := by
  unfold Record.endedAt at h ⊢
  cases hr : r.revokedAt with
  | some t => rfl
  | none =>
    rw [hr] at h
    cases hexp : r.expiresAt with
    | none =>
      rw [hexp] at h
      cases h
    | some t =>
      have ht : t ≤ now := by simpa [hexp] using h
      have ht' : t ≤ now' := ht.trans hle
      simp [ht']

theorem Record.endedAt_revoked {r : Record} (h : Revoked r) (now : ℕ) : (r.endedAt now).isSome = true := by
  obtain ⟨t, ht⟩ := Option.isSome_iff_exists.mp h
  rw [Record.endedAt, ht]
  rfl

/-- The grant whose end an event may move. -/
def Event.touches : Event → Option String
  | .update _ gid _ _ | .newCode _ gid _ _ _ | .redeem gid _ _ _ => some gid
  | _ => none

theorem Rewrites.ended {e : Event} {r r' : Record} (h : Rewrites sha s s' e r r')
    (htouch : e.touches ≠ some r.gid)
    {now : ℕ} (hended : (r.endedAt now).isSome = true) : (r'.endedAt now).isSome = true := by
  cases h with
  | update hgid | newCode hgid | redeem hgid => exact absurd (congrArg some hgid.symm) htouch
  | ticket _ hpresent =>
    rcases Record.present_spec hpresent with rfl | ⟨-, rfl⟩ <;> exact hended
  | @endGrant _ now =>
    obtain ⟨_, heq, -⟩ := r.endGrant_spec now
    rw [heq]
    rfl
  | mark _ _ hsweep =>
    obtain ⟨⟨_, _, rfl⟩, -⟩ := Record.sweep_spec hsweep
    exact hended
  | ack => exact hended

/-- Whatever is kept of the grant says that it has ended. -/
def State.Over (s : State) (gid : String) : Prop := ∀ r, s.load gid = some r → (r.endedAt s.clock).isSome = true

variable {gid : String}

theorem over_of_revoked (h : Settled Revoked gid s) : s.Over gid :=
  fun r hload => Record.endedAt_revoked (h.2 r hload) s.clock

theorem over_iff : s.Over gid ↔ s.isLive gid = false := by
  unfold State.Over State.isLive
  cases s.load gid with
  | none => simp
  | some r =>
    have hlive := @Record.isLive_iff r s.clock
    cases hended : r.endedAt s.clock <;> simp_all

theorem over_step (h : Sane s) {e : Event} (hgid : gid ∈ s.gids) (hover : s.Over gid)
    (hback : gid ∈ e.touches → (step sha configured s e).isLive gid = false) :
    (step sha configured s e).Over gid := by
  by_cases htouch : e.touches = some gid
  · exact over_iff.mpr (hback htouch)
  intro r hload
  obtain ⟨o, ho, hfate⟩ := load_step h e hload
  refine Record.endedAt_mono (step_rest sha configured h e).clock ?_
  cases hfate with
  | same => exact hover r ho
  | rewritten hrewrites => exact hrewrites.ended ((h.keyed gid _ ho).symm ▸ htouch) (hover _ ho)
  | created _ _ hnew => exact absurd hgid hnew

/-! ## Quiet runs -/

/-- A sweep has found the grant ended, and its sessions are still to be ended or are being ended. -/
def State.Collects (s : State) (gid : String) : Prop :=
  (∃ sw ∈ s.sweeps, gid ∈ sw.collected) ∨
    ∃ e ∈ s.ends, e.sweep.isSome = true ∧ e.phase.isDone = false ∧ e.gid = gid

instance (s : State) (gid : String) : Decidable (s.Collects gid) :=
  inferInstanceAs (Decidable ((∃ sw ∈ s.sweeps, gid ∈ sw.collected) ∨
    ∃ e ∈ s.ends, e.sweep.isSome = true ∧ e.phase.isDone = false ∧ e.gid = gid))

/-- Nothing brings back a grant that a sweep has collected. -/
def Quiet (sha : Digest) (configured : Bool) (s : State) (e : Event) : Prop :=
  ∀ gid ∈ e.touches, s.Collects gid → (step sha configured s e).isLive gid = false

instance (s : State) (e : Event) : Decidable (Quiet sha configured s e) :=
  inferInstanceAs (Decidable (∀ gid ∈ e.touches, s.Collects gid → (step sha configured s e).isLive gid = false))

/-- Whatever is to be ended has ended, and nothing was done to a grant that was live. -/
structure Overs (s : State) : Prop where
  collected : ∀ (i : ℕ) (sw : Sweep), s.sweeps[i]? = some sw → ∀ gid ∈ sw.collected, s.Over gid
  calls : ∀ (j : ℕ) (e : End), s.ends[j]? = some e → e.phase.isDone = false → s.Over e.gid
  acts : ∀ a ∈ s.acts, a.live = false

theorem Advances.not_done {phase phase' : Ending} (h : Advances configured s s' gid phase phase') :
    phase.isDone = false := by
  cases h <;> rfl

section Step

variable (hsane : Sane s) (hcalled : Called s) (h : Overs s) {e : Event} (hquiet : Quiet sha configured s e)
include hsane hcalled h hquiet

theorem collected_over {i : ℕ} {sw : Sweep} (hi : s.sweeps[i]? = some sw) (hgid : gid ∈ sw.collected) :
    (step sha configured s e).Over gid := by
  refine over_step hsane (hcalled.collected i sw hi gid hgid) (h.collected i sw hi gid hgid) fun htouch => ?_
  exact hquiet gid htouch (.inl ⟨sw, List.mem_of_getElem? hi, hgid⟩)

theorem call_over {j : ℕ} {c : End} (hj : s.ends[j]? = some c) (hdone : c.phase.isDone = false) :
    (step sha configured s e).Over c.gid := by
  obtain ⟨hgid, hrevoked⟩ := hcalled.calls j c hj
  cases hsweep : c.sweep with
  | none => exact over_of_revoked (revoked_step hsane (hrevoked hsweep) e)
  | some i =>
    refine over_step hsane hgid (h.calls j c hj hdone) fun htouch => ?_
    refine hquiet c.gid htouch (.inr ⟨c, List.mem_of_getElem? hj, ?_, hdone, rfl⟩)
    rw [hsweep]
    rfl

theorem overs_step : Overs (step sha configured s e) := by
  refine ⟨?_, ?_, ?_⟩
  · intro i sw hi gid hgid
    have hmove := step_sweep sha configured hsane e i
    rw [hi] at hmove
    -- what was collected before is over; what is new has just been found so
    have hold : ∀ sw', s.sweeps[i]? = some sw' → gid ∈ sw'.collected → (step sha configured s e).Over gid :=
      fun sw' ho hmem => collected_over hsane hcalled h hquiet ho hmem
    generalize ho : s.sweeps[i]? = o at hmove hold
    cases hmove with
    | same => exact hold sw rfl hgid
    | begun => cases hgid
    | @kept now _ _ _ _ _ r _ _ isOver _ hsweep hload' =>
      have hmem := hold _ rfl
      cases isOver with
      | false => exact hmem hgid
      | true =>
        rcases List.mem_snoc.mp hgid with hin | rfl
        · exact hmem hin
        · obtain ⟨⟨_, _, rfl⟩, -, -, -, hdue⟩ := Record.sweep_spec hsweep
          obtain ⟨at_, hat⟩ := hdue.mp rfl
          have hended : r.endedAt now = some at_ := (Option.filter_eq_some_iff.mp hat).1
          have hnow : now ≤ (step sha configured s e).clock :=
            (hsane.swept _ (List.mem_of_getElem? ho)).trans (step_rest sha configured hsane e).clock
          intro r₁ hr₁
          rw [hload'] at hr₁
          rw [← Option.some.inj hr₁]
          refine Record.endedAt_mono hnow ?_
          show (r.endedAt now).isSome = true
          rw [hended]
          rfl
    | next =>
      have hmem := hold _ rfl
      exact hmem (List.mem_cons_of_mem _ hgid)
    | _ =>
      have hmem := hold _ rfl
      exact hmem hgid
  · intro j c hj hdone
    have hmove := step_end sha configured hsane e j
    rw [hj] at hmove
    generalize ho : s.ends[j]? = o at hmove
    cases hmove with
    | same => exact call_over hsane hcalled h hquiet ho hdone
    | revoked hended =>
      obtain ⟨-, -, r, hload, hr⟩ := hended
      exact over_of_revoked (settled_of_load (sane_step hsane e) hload hr)
    | retired hget hgid => exact over_of_revoked (revoked_step hsane (hcalled.ended _ _ hget _ hgid) e)
    | swept hi => exact collected_over hsane hcalled h hquiet hi List.mem_cons_self
    | stepped hadvances =>
      have hover : (step sha configured s e).Over _ := call_over hsane hcalled h hquiet ho hadvances.not_done
      exact hover
  · intro a ha
    rcases (step_rest sha configured hsane e).acts a ha with hold | ⟨j, c, hj, hdone, -, hlive⟩
    · exact h.acts a hold
    · rw [hlive]
      exact over_iff.mp (h.calls j c hj hdone)

end Step

/-! ## Runs -/

theorem called_init : Called init := by
  refine ⟨?_, ?_, ?_, ?_⟩ <;> simp [init]

theorem acks_init : Acks configured init := by
  refine ⟨?_, ?_, ?_, ?_⟩ <;> simp [init, State.load]

theorem overs_init : Overs init := by
  refine ⟨?_, ?_, ?_⟩ <;> simp [init]

theorem reached_acks (sha : Digest) (configured : Bool) (es : List Event) :
    Called (reached sha configured es) ∧ Acks configured (reached sha configured es) :=
  (Run.exec_inv_all (I := fun s => Sane s ∧ Called s ∧ Acks configured s)
    (fun _ e hi => ⟨sane_step hi.1 e, called_step hi.1 hi.2.1 e, acks_step hi.1 hi.2.1 hi.2.2 e⟩) es
    ⟨sane_init, called_init, acks_init⟩).2

theorem reached_overs (sha : Digest) (configured : Bool) {es : List Event}
    (hquiet : Run.Meets (step sha configured) (Quiet sha configured) init es) :
    Overs (reached sha configured es) :=
  (Run.exec_inv (I := fun s => Sane s ∧ Called s ∧ Overs s)
    (fun _ e hi hq => ⟨sane_step hi.1 e, called_step hi.1 hi.2.1 e, overs_step hi.1 hi.2.1 hi.2.2 hq⟩)
    ⟨sane_init, called_init, overs_init⟩ hquiet).2.2

def untilBody (at_ : ℕ) : Body := ⟨true, .absent, .absent, .number at_, .absent⟩

/-- A grant is redeemed, ends, and is swept once without an answer and once with one. -/
def sweptLife : List Event :=
  [.create "host" (untilBody 100) "0000000a" "code" 0, .redeem "0000000a" "code" "d1" 0, .tick 200,
    .sweep 200, .sweepEntry 0 true, .sweepIndex 0 true, .sweepNext 0, .stepEnd 0 true, .stepEnd 0 true,
    .stepEnd 0 true,
    .stepEnd 0 true, .stepEnd 0 false, .sweep 200, .sweepEntry 1 true, .sweepIndex 1 true, .sweepNext 1,
    .stepEnd 1 true, .stepEnd 1 true, .stepEnd 1 true, .stepEnd 1 true, .stepEnd 1 true, .stepEnd 1 true]

end DenEdge.Grants
