import DenEdge.Grants.Final

/-!
# Ending the sessions of a grant

That a grant has ended, the kill of its sessions and the acknowledgement are three critical sections, with
anything in between. What holds across them: a grant that is being ended has ended, as long as nothing brings it
back meanwhile; the record says that a kill was acknowledged only where den-remux acknowledged one sent at or
after the end it is for; and a sweep that ran to its end sent the kill for every end it found unacknowledged, but
for what it says of the rest.
-/

namespace DenEdge.Grants

variable {sha : Digest} {configured : Bool} {s s' : State}

/-! ## What a step does to a call -/

/-- The steps of a call. -/
inductive Advances (configured : Bool) (s s' : State) (gid : String) : Ending → Ending → Prop where
  | forget : Advances configured s s' gid .forget .connections
  | connections : Advances configured s s' gid .connections .look
  | look (ok : Bool) : Advances configured s s' gid .look (lookEnd s gid ok)
  | kill (event : Option ℕ) : Advances configured s s' gid (.kill event) (.asked event s.clock)
  | silent (event : Option ℕ) (hc : configured = false) :
      Advances configured s s' gid (.kill event) (told event .unconfigured)
  | answered (event : Option ℕ) (at_ : ℕ) (hack : (gid, at_) ∈ s'.acks) :
      Advances configured s s' gid (.asked event at_) (told event (.sent at_ true))
  | refused (event : Option ℕ) (at_ : ℕ) :
    Advances configured s s' gid (.asked event at_) (.done (.sent at_ false))
  | acked (event : ℕ) (how : How) : Advances configured s s' gid (.ack event how) (.done how)

/-- What a step does to a call of `end_sessions`. -/
inductive EndMove (configured : Bool) (s s' : State) : Option End → Option End → Prop where
  | same (o : Option End) : EndMove configured s s' o o
  | lost (o : Option End) (hsweeps : s'.sweeps = []) : EndMove configured s s' o none
  | revoked {e : End} (hended : Ended s' e) : EndMove configured s s' none (some e)
  | retired {host gid : String} {gids : List String} (hget : Assoc.get s.retiring host = some (.revoked gids))
      (hgid : gid ∈ gids) : EndMove configured s s' none (some ⟨gid, none, .forget⟩)
  | swept {i now : ℕ} {gid : String} {ended : List String} {due : List (String × ℕ)}
      (hi : s.sweeps[i]? = some ⟨now, .ending (gid :: ended), due⟩) :
      EndMove configured s s' none (some ⟨gid, some i, .forget⟩)
  | stepped {e : End} {phase : Ending} (hadvances : Advances configured s s' e.gid e.phase phase) :
      EndMove configured s s' (some e) (some { e with phase := phase })

theorem EndMove.stays (hends : s'.ends = s.ends) (j : ℕ) : EndMove configured s s' s.ends[j]? s'.ends[j]? := by
  rw [hends]
  exact .same _

theorem EndMove.append {added : List End} (hends : s'.ends = s.ends ++ added)
    (hadded : ∀ e ∈ added, EndMove configured s s' none (some e)) (j : ℕ) :
    EndMove configured s s' s.ends[j]? s'.ends[j]? := by
  rw [hends, List.getElem?_append]
  split_ifs with hlen
  · exact .same _
  · rw [List.getElem?_eq_none (not_lt.mp hlen)]
    cases hget : added[j - s.ends.length]? with
    | none => exact .same _
    | some e => exact hadded e (List.mem_of_getElem? hget)

variable {k : ℕ}
variable {phase : Ending} {at_ : ℕ}

theorem EndMove.set {e : End} (hk : s.ends[k]? = some e)
    (hends : s'.ends = s.ends.set k { e with phase := phase })
    (hadvances : Advances configured s s' e.gid e.phase phase) (j : ℕ) :
    EndMove configured s s' s.ends[j]? s'.ends[j]? := by
  have hlen : k < s.ends.length := (List.getElem?_eq_some_iff.mp hk).1
  rw [hends, List.getElem?_set]
  split_ifs with hkj
  · rw [← hkj, hk]
    exact .stepped hadvances
  · exact .same _

theorem EndMove.of_plain (hplain : Plain s s') (j : ℕ) : EndMove configured s s' s.ends[j]? s'.ends[j]? := by
  rcases hplain.ends with hsame | ⟨e, happ, hended⟩
  · exact .stays hsame j
  · refine .append happ (fun e' he' => ?_) j
    rw [List.mem_singleton.mp he']
    exact .revoked hended

theorem ackEnd_ends (s : State) (gid : String) (event : ℕ) : (ackEnd s gid event).ends = s.ends := by
  unfold ackEnd
  repeat' split
  all_goals rfl

theorem stepEnd_move {e : End} (hk : s.ends[k]? = some e) (ok : Bool) (j : ℕ) :
    EndMove configured s (stepEnd configured s k e ok) s.ends[j]? (stepEnd configured s k e ok).ends[j]? := by
  obtain ⟨gid, sweep, phase⟩ := e
  unfold stepEnd
  cases phase with
  | forget => exact .set hk (by rfl) .forget j
  | connections => exact .set hk (by rfl) .connections j
  | look => exact .set hk (by rfl) (.look ok) j
  | kill event =>
    cases hc : configured with
    | true => exact .set hk (by rfl) (.kill event) j
    | false => exact .set hk (by rfl) (.silent event rfl) j
  | asked event at_ =>
    cases ok with
    | true => exact .set hk (by rfl) (.answered event at_ List.mem_concat_self) j
    | false => exact .set hk (by rfl) (.refused event at_) j
  | ack event how =>
    cases ok with
    | true =>
      refine .set hk ?_ (.acked event how) j
      show (ackEnd s gid event).ends.set k _ = _
      rw [ackEnd_ends]
    | false => exact .set hk (by rfl) (.acked event how) j
  | done how => exact .same _

/-- **What a step does to a call.** -/
theorem step_end (sha : Digest) (configured : Bool) (h : Sane s) (e : Event) (j : ℕ) :
    EndMove configured s (step sha configured s e) s.ends[j]? (step sha configured s e).ends[j]? := by
  unfold step
  split_ifs
  swap
  · exact .same _
  cases e with
  | create host body gid code now =>
    exact act_create s host body gid code now (P := fun s' =>
      EndMove configured s s' s.ends[j]? s'.ends[j]?) (.same _) fun r => .stays (by rfl) j
  | release =>
    dsimp only [act]
    split
    next gids hget =>
      refine .append (by rfl) (fun e he => ?_) j
      split_ifs at he
      · obtain ⟨gid, hgid, rfl⟩ := List.mem_map.mp he
        exact .retired hget hgid
      · cases he
    next => exact .stays (by rfl) j
    next => exact .same _
  | sweepNext i =>
    dsimp only [act]
    split
    next now gid ended due hi =>
      split_ifs
      · refine .append (by rfl) (fun e he => ?_) j
        rw [List.mem_singleton.mp he]
        exact .swept hi
      · exact .same _
    next => exact .same _
  | stepEnd k ok =>
    dsimp only [act]
    split
    next e hk => exact stepEnd_move hk ok j
    next => exact .same _
  | restart => exact .lost _ rfl
  | mintTicket | retire | sweep | revokeHost | revokeEntry | sweepEntry | sweepIndex =>
    dsimp only [act, revokeEntry, mintTicket, sweepEntry]
    repeat' split
    all_goals exact .stays (by rfl) j
  | _ =>
    exact .of_plain (act_plain h _ rfl) j

/-! ## Acknowledgements -/

variable {r : Record} {gid : String}

namespace Rewrites

variable {e : Event} {r' : Record}

theorem revokedAt_le (h : Rewrites sha s s' e r r') {t : ℕ} (ht : r'.revokedAt = some t) :
    r.revokedAt = some t ∨ t ≤ s.clock := by
  rcases h.changes.revokedAt with hsame | ⟨now, hnow, heq⟩
  · exact .inl (hsame.symm.trans ht)
  · obtain rfl : r.revokedAt.getD now = t := Option.some.inj (heq.symm.trans ht)
    cases hr : r.revokedAt with
    | none => exact .inr hnow
    | some t => exact .inl rfl

end Rewrites

/-- A kill sent at or after an end was acknowledged, or there is no den-remux to be told. -/
def Acknowledged (configured : Bool) (s : State) (gid : String) (at_ : ℕ) : Prop :=
  configured = false ∨ ∃ t, (gid, t) ∈ s.acks ∧ at_ ≤ t

/-- What a call found is so. -/
def How.Sound (configured : Bool) (s : State) (gid : String) : How → Prop
  | .sent .. => True
  | .unconfigured => configured = false
  | .gone => s.load gid = none
  | .acked => ∃ at_, Acknowledged configured s gid at_
  | .late event => killUntil event ≤ s.clock

/-- What a call is about has been. -/
def Ending.Sound (configured : Bool) (s : State) (gid : String) : Ending → Prop
  | .kill event => ∀ at_ ∈ event, at_ ≤ s.clock
  | .asked event t => ∀ at_ ∈ event, at_ ≤ t
  | .ack event how => Acknowledged configured s gid event ∧ how.Sound configured s gid
  | .done how => how.Sound configured s gid
  | .forget | .connections | .look => True

structure Acks (configured : Bool) (s : State) : Prop where
  revoked : ∀ gid r t, s.load gid = some r → r.revokedAt = some t → t ≤ s.clock
  marked : ∀ gid r at_, s.load gid = some r → r.remuxKillFor = some at_ → at_ ≤ s.clock
  acked : ∀ gid r, s.load gid = some r → r.remuxKillAcked = true →
    ∃ at_, r.remuxKillFor = some at_ ∧ Acknowledged configured s gid at_
  calls : ∀ (j : ℕ) (e : End), s.ends[j]? = some e → e.gid ∈ s.gids ∧ e.phase.Sound configured s e.gid

theorem Acknowledged.mono (h : Acknowledged configured s gid at_) (hacks : s.acks ⊆ s'.acks) :
    Acknowledged configured s' gid at_ :=
  h.imp_right fun ⟨t, hmem, hle⟩ => ⟨t, hacks hmem, hle⟩

theorem told_sound {event : Option ℕ} {how : How} (hack : ∀ at_ ∈ event, Acknowledged configured s gid at_)
    (hhow : how.Sound configured s gid) : (told event how).Sound configured s gid := by
  cases event with
  | none => exact hhow
  | some at_ => exact ⟨hack at_ rfl, hhow⟩

/-- What the look of a call finds is so. -/
theorem lookEnd_sound (h : Acks configured s) (gid : String) (ok : Bool) :
    (lookEnd s gid ok).Sound configured s gid := by
  -- the phase is named: as a goal about the conditional it would be computed, with the bound in it
  generalize hphase : lookEnd s gid ok = phase
  unfold lookEnd at hphase
  split at hphase
  · rw [← hphase]
    exact nofun
  · cases hload : s.load gid with
    | none =>
      simp only [hload] at hphase
      rw [← hphase]
      exact hload
    | some r =>
      simp only [hload] at hphase
      split at hphase
      next hacked =>
        obtain ⟨at_, -, hack⟩ := h.acked gid r hload hacked
        rw [← hphase]
        exact ⟨at_, hack⟩
      next hacked =>
        cases hfor : r.remuxKillFor with
        | none =>
          simp only [hfor] at hphase
          rw [← hphase]
          exact nofun
        | some at_ =>
          simp only [hfor] at hphase
          split at hphase
          next hsoon =>
            rw [← hphase]
            intro at' hat'
            obtain rfl : at_ = at' := Option.some.inj hat'
            exact h.marked gid r at_ hload hfor
          next hlate =>
            rw [← hphase]
            exact not_lt.mp hlate

section Step

variable (hsane : Sane s) (h : Acks configured s) (e : Event)
include hsane

theorem how_step {gid : String} (hgid : gid ∈ s.gids) {how : How} (hhow : how.Sound configured s gid) :
    how.Sound configured (step sha configured s e) gid := by
  cases how with
  | sent => exact hhow
  | unconfigured => exact hhow
  | gone => exact gone_step hsane hgid hhow e
  | acked =>
    obtain ⟨at_, hack⟩ := hhow
    exact ⟨at_, hack.mono (step_rest sha configured hsane e).acks⟩
  | late => exact le_trans hhow (step_rest sha configured hsane e).clock

theorem ending_step {gid : String} (hgid : gid ∈ s.gids) (hphase : phase.Sound configured s gid) :
    phase.Sound configured (step sha configured s e) gid := by
  cases phase with
  | forget | connections | look => trivial
  | kill => exact fun at_ hat => (hphase at_ hat).trans (step_rest sha configured hsane e).clock
  | asked => exact hphase
  | ack =>
    exact ⟨hphase.1.mono (step_rest sha configured hsane e).acks, how_step hsane e hgid hphase.2⟩
  | done how => exact how_step hsane e hgid hphase

include h in
/-- A call's next phase is sound. -/
theorem advances_sound {gid : String} {phase' : Ending} (hgid : gid ∈ s.gids)
    (hphase : phase.Sound configured s gid)
    (hadvances : Advances configured s (step sha configured s e) gid phase phase') :
    phase'.Sound configured (step sha configured s e) gid := by
  cases hadvances with
  | look ok => exact ending_step hsane e hgid (lookEnd_sound h gid ok)
  | kill => exact hphase
  | silent event hc => exact told_sound (fun _ _ => .inl hc) hc
  | answered event t hack => exact told_sound (fun at_ hat => .inr ⟨t, hack, hphase at_ hat⟩) trivial
  | acked => exact how_step hsane e hgid hphase.2
  | _ => trivial

end Step

/-! ## What is to be ended -/

/-- The grants a sweep has found ended, and is still to call `end_sessions` for. -/
def Sweep.collected (sw : Sweep) : List String :=
  match sw.phase with
  | .scanning _ ended _ => ended
  | .ending ended => ended

/-- The grants a retirement has revoked. -/
def Retiring.ended : Retiring → List String
  | .began => []
  | .revoking _ _ gids => gids
  | .revoked gids => gids

def Revoked (r : Record) : Prop := r.revokedAt.isSome = true

theorem Rewrites.revoked {e : Event} {r' : Record} (h : Rewrites sha s s' e r r') (hr : Revoked r) :
    Revoked r' := by
  obtain ⟨t, ht⟩ := Option.isSome_iff_exists.mp hr
  rw [Revoked, h.revokedAt ht]
  rfl

theorem revoked_step (h : Sane s) (hs : Settled Revoked gid s) (e : Event) :
    Settled Revoked gid (step sha configured s e) :=
  settled_step h (fun _ _ hrewrites hr => hrewrites.revoked hr) hs

/-- Whatever is to be ended was a grant once, and what a request or a retirement ends is revoked. What a sweep
found due is still to be ended by it, or is being ended. -/
structure Called (s : State) : Prop where
  collected : ∀ (i : ℕ) (sw : Sweep), s.sweeps[i]? = some sw → ∀ gid ∈ sw.collected, gid ∈ s.gids
  ended : ∀ host x, Assoc.get s.retiring host = some x → ∀ gid ∈ x.ended, Settled Revoked gid s
  calls : ∀ (j : ℕ) (e : End), s.ends[j]? = some e → e.gid ∈ s.gids ∧ (e.sweep = none → Settled Revoked e.gid s)
  due : ∀ (i : ℕ) (sw : Sweep), s.sweeps[i]? = some sw → ∀ d ∈ sw.due, d.1 ∈ sw.collected ∨
    ∃ (j : ℕ) (e : End), s.ends[j]? = some e ∧ e.sweep = some i ∧ e.gid = d.1

/-- A record that is reaped ended long before: its kill is not due. -/
theorem Record.due_reap {now : ℕ} (h : r.sweep now = .reap) : r.due now = none := by
  unfold Record.sweep at h
  cases hended : r.endedAt now with
  | none => simp [hended] at h
  | some ended =>
    simp only [hended] at h
    split at h
    next hreap =>
      have hlate : killUntil ended ≤ now := by
        have hle : ended + REMUX_SESSION_MAX_MS ≤ ended + REAP_MS := by
          have : REMUX_SESSION_MAX_MS ≤ REAP_MS := by decide
          omega
        exact (min_le_left _ _).trans (hle.trans hreap)
      rw [Record.due, hended]
      simp [hlate]
    next => cases h

/-- A call goes on until it is lost with every sweep. -/
theorem call_stays (h : Sane s) (e : Event) {i j : ℕ} {sw : Sweep} {c : End}
    (hi : (step sha configured s e).sweeps[i]? = some sw) (hj : s.ends[j]? = some c) :
    ∃ c', (step sha configured s e).ends[j]? = some c' ∧ c'.sweep = c.sweep ∧ c'.gid = c.gid := by
  have hmove := step_end sha configured h e j
  rw [hj] at hmove
  generalize ho : (step sha configured s e).ends[j]? = o at hmove
  cases hmove with
  | same => exact ⟨c, rfl, rfl, rfl⟩
  | lost _ hsweeps =>
    rw [hsweeps] at hi
    cases hi
  | stepped => exact ⟨_, rfl, rfl, rfl⟩

section Step

variable (hsane : Sane s) (h : Called s) (e : Event)
include hsane h

theorem collected_step (i : ℕ) (sw : Sweep) (hi : (step sha configured s e).sweeps[i]? = some sw) (gid : String)
    (hgid : gid ∈ sw.collected) : gid ∈ (step sha configured s e).gids := by
  have hmove := step_sweep sha configured hsane e i
  rw [hi] at hmove
  refine (step_rest sha configured hsane e).gids ?_
  generalize ho : s.sweeps[i]? = o at hmove
  cases hmove with
  | same => exact h.collected i sw ho gid hgid
  | begun => cases hgid
  | @kept _ _ _ _ _ _ r _ _ isOver hload =>
    have hold := h.collected i _ ho gid
    cases isOver with
    | false => exact hold hgid
    | true =>
      rcases List.mem_snoc.mp hgid with hmem | rfl
      · exact hold hmem
      · exact hsane.known gid r hload
  | next =>
    have hold := h.collected i _ ho gid
    exact hold (List.mem_cons_of_mem _ hgid)
  | _ =>
    have hold := h.collected i _ ho gid
    exact hold hgid

theorem ended_step (host : String) (x : Retiring)
    (hget : Assoc.get (step sha configured s e).retiring host = some x)
    (gid : String) (hgid : gid ∈ x.ended) : Settled Revoked gid (step sha configured s e) := by
  have hmove := step_retiring sha configured hsane e host
  rw [hget] at hmove
  generalize ho : Assoc.get s.retiring host = o at hmove
  cases hmove with
  | same => exact revoked_step hsane (h.ended host x ho gid hgid) e
  | began => cases hgid
  | listed => cases hgid
  | passed | finished => exact revoked_step hsane (h.ended host _ ho gid hgid) e
  | @ended now _ _ _ r _ hload' =>
    rcases List.mem_snoc.mp hgid with hmem | rfl
    · exact revoked_step hsane (h.ended host _ ho gid hmem) e
    · refine settled_of_load (sane_step hsane e) hload' ?_
      obtain ⟨_, heq, -⟩ := r.endGrant_spec now
      rw [heq]
      rfl

theorem calls_step (j : ℕ) (c : End) (hj : (step sha configured s e).ends[j]? = some c) :
    c.gid ∈ (step sha configured s e).gids ∧
      (c.sweep = none → Settled Revoked c.gid (step sha configured s e)) := by
  have hmove := step_end sha configured hsane e j
  rw [hj] at hmove
  have hgids := (step_rest sha configured hsane e).gids
  generalize ho : s.ends[j]? = o at hmove
  cases hmove with
  | same =>
    obtain ⟨hgid, hrevoked⟩ := h.calls j c ho
    exact ⟨hgids hgid, fun hnone => revoked_step hsane (hrevoked hnone) e⟩
  | revoked hended =>
    obtain ⟨-, -, r, hload, hr⟩ := hended
    have hsettled := settled_of_load (P := Revoked) (sane_step hsane e) hload hr
    exact ⟨hsettled.1, fun _ => hsettled⟩
  | retired hget hgid =>
    have hsettled : Settled Revoked _ (step sha configured s e) := revoked_step hsane (h.ended _ _ hget _ hgid) e
    exact ⟨hsettled.1, fun _ => hsettled⟩
  | swept hi => exact ⟨hgids (h.collected _ _ hi _ List.mem_cons_self), nofun⟩
  | stepped =>
    obtain ⟨hgid, hrevoked⟩ := h.calls j _ ho
    exact ⟨hgids hgid, fun hnone => revoked_step hsane (hrevoked hnone) e⟩

theorem due_step (i : ℕ) (sw : Sweep) (hi : (step sha configured s e).sweeps[i]? = some sw) (d : String × ℕ)
    (hd : d ∈ sw.due) : d.1 ∈ sw.collected ∨
      ∃ (j : ℕ) (c : End), (step sha configured s e).ends[j]? = some c ∧ c.sweep = some i ∧ c.gid = d.1 := by
  have hmove := step_sweep sha configured hsane e i
  rw [hi] at hmove
  -- a call there was is still there
  have hcall : (∃ (j : ℕ) (c : End), s.ends[j]? = some c ∧ c.sweep = some i ∧ c.gid = d.1) →
      ∃ (j : ℕ) (c : End), (step sha configured s e).ends[j]? = some c ∧ c.sweep = some i ∧ c.gid = d.1 := by
    rintro ⟨j, c, hj, hsweep, hgid⟩
    obtain ⟨c', hj', hsweep', hgid'⟩ := call_stays hsane e hi hj
    exact ⟨j, c', hj', hsweep'.trans hsweep, hgid'.trans hgid⟩
  generalize ho : s.sweeps[i]? = o at hmove
  cases hmove with
  | same => exact (h.due i sw ho d hd).imp_right hcall
  | begun => cases hd
  | skipped | missing | indexed =>
    have hold := h.due i _ ho d hd
    exact hold.imp_right hcall
  | reaped _ hsweep =>
    rw [Record.due_reap hsweep] at hd
    have hold := h.due i _ ho d (by simpa using hd)
    exact hold.imp_right hcall
  | @kept now gid _ ended gone due r _ _ isOver _ hsweep =>
    rcases List.mem_append.mp hd with hmem | hmem
    · refine (h.due i _ ho d hmem).imp (fun hold => ?_) hcall
      show d.1 ∈ if isOver = true then ended ++ [gid] else ended
      split_ifs
      · exact List.mem_append_left _ hold
      · exact hold
    · -- what is due now is over
      obtain ⟨at_, hdue, rfl⟩ : ∃ at_, r.due now = some at_ ∧ (gid, at_) = d := by simpa using hmem
      have hover : isOver = true := (Record.sweep_spec hsweep).2.2.2.2.mpr ⟨at_, hdue⟩
      left
      show gid ∈ if isOver = true then ended ++ [gid] else ended
      rw [if_pos hover]
      exact List.mem_concat_self
  | @next _ gid _ _ hends =>
    rcases h.due i _ ho d hd with hmem | hold
    · rcases List.mem_cons.mp hmem with heq | hmem
      · right
        refine ⟨s.ends.length, ⟨gid, some i, .forget⟩, ?_, rfl, heq.symm⟩
        rw [hends]
        simp
      · exact .inl hmem
    · exact .inr (hcall hold)

theorem called_step : Called (step sha configured s e) :=
  ⟨collected_step hsane h e, ended_step hsane h e, calls_step hsane h e, due_step hsane h e⟩

end Step

theorem acks_step (hsane : Sane s) (hcalled : Called s) (h : Acks configured s) (e : Event) :
    Acks configured (step sha configured s e) := by
  have hclock := (step_rest sha configured hsane e).clock
  have hacks := (step_rest sha configured hsane e).acks
  refine ⟨?_, ?_, ?_, ?_⟩
  · intro gid r t hload ht
    obtain ⟨o, ho, hfate⟩ := load_step hsane e hload
    refine le_trans ?_ hclock
    cases hfate with
    | same => exact h.revoked gid r t ho ht
    | rewritten hrewrites =>
      rcases hrewrites.revokedAt_le ht with hold | hle
      · exact h.revoked gid _ t ho hold
      · exact hle
    | created _ _ _ _ _ _ happly =>
      obtain ⟨_, _, _, _, rfl⟩ := Record.apply_spec happly
      cases ht
  · intro gid r at_ hload hat
    obtain ⟨o, ho, hfate⟩ := load_step hsane e hload
    refine le_trans ?_ hclock
    cases hfate with
    | same => exact h.marked gid r at_ ho hat
    | rewritten hrewrites =>
      rcases hrewrites.changes.killFor at_ hat with hold | hrevoked | hle
      · exact h.marked gid _ at_ ho hold
      · exact h.revoked gid _ at_ ho hrevoked
      · exact hle
    | created _ _ _ _ _ _ happly =>
      obtain ⟨_, _, _, _, rfl⟩ := Record.apply_spec happly
      cases hat
  · intro gid r hload hacked
    obtain ⟨o, ho, hfate⟩ := load_step hsane e hload
    cases hfate with
    | same =>
      obtain ⟨at_, hfor, hack⟩ := h.acked gid r ho hacked
      exact ⟨at_, hfor, hack.mono hacks⟩
    | rewritten hrewrites =>
      rcases hrewrites.changes.acked hacked with ⟨hold, hsame⟩ | ⟨j, c, event, how, hj, hphase, hgid, hfor⟩
      · obtain ⟨at_, hfor, hack⟩ := h.acked gid _ ho hold
        exact ⟨at_, hsame.trans hfor, hack.mono hacks⟩
      · -- the call that says so had its kill acknowledged
        have hsound := (h.calls j c hj).2
        rw [hphase, hgid, hsane.keyed gid _ ho] at hsound
        exact ⟨event, hfor, hsound.1.mono hacks⟩
    | created _ _ _ _ _ _ happly =>
      obtain ⟨_, _, _, _, rfl⟩ := Record.apply_spec happly
      cases hacked
  · intro j c hj
    have hgid := ((calls_step hsane hcalled e) j c hj).1
    refine ⟨hgid, ?_⟩
    have hmove := step_end sha configured hsane e j
    rw [hj] at hmove
    generalize ho : s.ends[j]? = o at hmove
    cases hmove with
    | same => exact ending_step hsane e (h.calls j c ho).1 (h.calls j c ho).2
    | revoked hended =>
      rw [hended.2.1]
      trivial
    | retired => trivial
    | swept => trivial
    | stepped hadvances => exact advances_sound hsane h e (h.calls j _ ho).1 (h.calls j _ ho).2 hadvances

end DenEdge.Grants
