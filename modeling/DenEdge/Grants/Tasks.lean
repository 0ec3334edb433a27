import DenEdge.Grants.Effects

/-!
# What a step does to a sweep and to a retirement

A sweep and a retirement go through the index entry by entry, and what they have read grows old meanwhile. One
lemma says what a step does to each (`step_sweep`, `step_retiring`); with them every state reached is a sane one
(`sane_step`).
-/

namespace DenEdge.Grants

variable {sha : Digest} {configured : Bool} {s s' : State}

/-- A create changes the records, the index and what was drawn. -/
theorem act_create (s : State) (host : String) (body : Body) (gid code : String) (now : ℕ)
    {P : State → Prop} (hs : P s) (hP : ∀ r, P { s.save r with
      index := s.index ++ [⟨gid, host⟩], gids := s.gids ++ [gid], codes := s.codes ++ [code] }) :
    P (act sha configured s (.create host body gid code now)) := by
  dsimp only [act]
  refine route_cases hs fun _ s' hs' => ?_
  obtain ⟨r, -, -, -, rfl⟩ := create_spec hs'
  exact hP _

/-! ## Sweeps -/

/-- What a step does to a sweep. -/
inductive SweepMove (s s' : State) (i : ℕ) : Option Sweep → Option Sweep → Prop where
  | same (o : Option Sweep) : SweepMove s s' i o o
  | begun {now : ℕ} (hnow : now ≤ s.clock) :
      SweepMove s s' i none (some ⟨now, .scanning (s.index.map IndexEntry.gid) [] [], []⟩)
  | lost (o : Option Sweep) : SweepMove s s' i o none
  | skipped {now : ℕ} {gid : String} {todo ended gone : List String} {due : List (String × ℕ)} :
      SweepMove s s' i (some ⟨now, .scanning (gid :: todo) ended gone, due⟩)
      (some ⟨now, .scanning todo ended gone, due⟩)
  | missing {now : ℕ} {gid : String} {todo ended gone : List String} {due : List (String × ℕ)}
      (hload : s.load gid = none) (hload' : s'.load gid = none) :
      SweepMove s s' i (some ⟨now, .scanning (gid :: todo) ended gone, due⟩)
        (some ⟨now, .scanning todo ended (gone ++ [gid]), due⟩)
  | reaped {now : ℕ} {gid : String} {todo ended gone : List String} {due : List (String × ℕ)} {r : Record}
      (hload : s.load gid = some r) (hsweep : r.sweep now = .reap) (hload' : s'.load gid = none) :
      SweepMove s s' i (some ⟨now, .scanning (gid :: todo) ended gone, due⟩)
        (some ⟨now, .scanning todo ended (gone ++ [gid]), due ++ ((r.due now).map fun at_ => (gid, at_)).toList⟩)
  | kept {now : ℕ} {gid : String} {todo ended gone : List String} {due : List (String × ℕ)} {r r' : Record}
      {write isOver : Bool} (hload : s.load gid = some r) (hsweep : r.sweep now = .keep r' write isOver)
      (hload' : s'.load gid = some r') :
      SweepMove s s' i (some ⟨now, .scanning (gid :: todo) ended gone, due⟩)
        (some ⟨now, .scanning todo (if isOver then ended ++ [gid] else ended) gone,
          due ++ ((r.due now).map fun at_ => (gid, at_)).toList⟩)
  | indexed {now : ℕ} {ended gone : List String} {due : List (String × ℕ)} :
      SweepMove s s' i (some ⟨now, .scanning [] ended gone, due⟩) (some ⟨now, .ending ended, due⟩)
  | next {now : ℕ} {gid : String} {ended : List String} {due : List (String × ℕ)}
      (hends : s'.ends = s.ends ++ [⟨gid, some i, .forget⟩]) :
      SweepMove s s' i (some ⟨now, .ending (gid :: ended), due⟩) (some ⟨now, .ending ended, due⟩)

/-- One sweep moves, and the others stay. -/
theorem SweepMove.set {k : ℕ} {sw sw' : Sweep} (hk : s.sweeps[k]? = some sw)
    (hsweeps : s'.sweeps = s.sweeps.set k sw')
    (hmove : SweepMove s s' k (some sw) (some sw')) (i : ℕ) : SweepMove s s' i s.sweeps[i]? s'.sweeps[i]? := by
  have hlen : k < s.sweeps.length := (List.getElem?_eq_some_iff.mp hk).1
  rw [hsweeps, List.getElem?_set]
  split_ifs with hki
  · rw [← hki, hk]
    exact hmove
  · exact .same _

theorem SweepMove.stays (hsweeps : s'.sweeps = s.sweeps) (i : ℕ) :
    SweepMove s s' i s.sweeps[i]? s'.sweeps[i]? := by
  rw [hsweeps]
  exact .same _

theorem sweepEntry_move (h : Sane s) {k now : ℕ} {gid : String} {todo ended gone : List String}
    {due : List (String × ℕ)} (hk : s.sweeps[k]? = some ⟨now, .scanning (gid :: todo) ended gone, due⟩) (i : ℕ) :
    SweepMove s (sweepEntry s k now due gid todo ended gone) i s.sweeps[i]?
      (sweepEntry s k now due gid todo ended gone).sweeps[i]? := by
  unfold sweepEntry
  cases hload : s.load gid with
  | none => exact .set hk (by rfl) (.missing hload (by exact hload)) i
  | some r =>
    dsimp only
    cases hsweep : r.sweep now with
    | reap =>
      refine .set hk rfl (.reaped hload hsweep ?_) i
      show Assoc.get (Assoc.erase s.records gid) gid = none
      rw [Assoc.get_erase, if_pos rfl]
    | keep r' write =>
      cases write with
      | false =>
        refine .set hk rfl (.kept hload hsweep ?_) i
        rw [(Record.sweep_spec hsweep).2.2.2.1 rfl]
        exact hload
      | true =>
        refine .set hk rfl (.kept hload hsweep ?_) i
        show (s.save r').load gid = some r'
        have hgid : gid = r'.gid := by
          obtain ⟨⟨_, _, rfl⟩, -⟩ := Record.sweep_spec hsweep
          exact (h.keyed gid r hload).symm
        rw [load_save, if_pos hgid]

/-- **What a step does to a sweep.** -/
theorem step_sweep (sha : Digest) (configured : Bool) (h : Sane s) (e : Event) (i : ℕ) :
    SweepMove s (step sha configured s e) i s.sweeps[i]? (step sha configured s e).sweeps[i]? := by
  unfold step
  split_ifs with hnow
  swap
  · exact .same _
  cases e with
  | sweep now =>
    show SweepMove s _ i s.sweeps[i]? (s.sweeps ++ [_])[i]?
    rw [List.getElem?_append]
    split_ifs with hlen
    · exact .same _
    · rw [List.getElem?_eq_none (not_lt.mp hlen)]
      cases hi : i - s.sweeps.length with
      | zero => exact .begun hnow
      | succ => exact .same _
  | sweepEntry k ok =>
    dsimp only [act]
    split
    next now gid todo ended gone due hk =>
      cases ok with
      | true => exact sweepEntry_move h hk i
      | false => exact .set hk rfl .skipped i
    next => exact .same _
  | sweepIndex =>
    dsimp only [act]
    split
    next now ended gone due hk => exact .set hk rfl .indexed i
    next => exact .same _
  | sweepNext k =>
    dsimp only [act]
    split
    next now gid ended due hk =>
      split_ifs
      · exact .set hk rfl (.next rfl) i
      · exact .same _
    next => exact .same _
  | restart => exact .lost _
  | create host body gid code now =>
    exact act_create s host body gid code now (P := fun s' =>
      SweepMove s s' i s.sweeps[i]? s'.sweeps[i]?) (.same _) fun r => .stays (by rfl) i
  | retire | revokeHost | revokeEntry | release | mintTicket | stepEnd =>
    dsimp only [act, revokeEntry, mintTicket, stepEnd, ackEnd]
    repeat' split
    all_goals exact .stays (by rfl) i
  | _ =>
    exact .stays (act_plain h _ rfl).sweeps i

theorem SweepMove.now_le {i : ℕ} {o : Option Sweep} {sw : Sweep} (hmove : SweepMove s s' i o (some sw))
    (hold : ∀ sw', o = some sw' → sw'.now ≤ s.clock) : sw.now ≤ s.clock := by
  cases hmove with
  | same => exact hold sw rfl
  | begun hnow => exact hnow
  | _ =>
    have hle := hold _ rfl
    exact hle

/-! ## Retirements -/

/-- What a step does to a retirement. -/
inductive RetireMove (s s' : State) (host : String) : Option Retiring → Option Retiring → Prop where
  | same (o : Option Retiring) : RetireMove s s' host o o
  | began : RetireMove s s' host none (some .began)
  | listed {now : ℕ} (hnow : now ≤ s.clock) (hrecords : s'.records = s.records) :
      RetireMove s s' host (some .began)
        (some (.revoking now ((s.index.filter (·.host = host)).map IndexEntry.gid) []))
  | passed {now : ℕ} {gid : String} {todo revoked : List String} (hrecords : s'.records = s.records)
      (hpass : ∀ r, s.load gid = some r → r.host = host → r.revokedAt.isSome = true) :
      RetireMove s s' host (some (.revoking now (gid :: todo) revoked)) (some (.revoking now todo revoked))
  | ended {now : ℕ} {gid : String} {todo revoked : List String} {r : Record} (hload : s.load gid = some r)
      (hload' : s'.load gid = some (r.endGrant now)) :
      RetireMove s s' host (some (.revoking now (gid :: todo) revoked))
        (some (.revoking now todo (revoked ++ [gid])))
  | finished {now : ℕ} {revoked : List String} (hrecords : s'.records = s.records) :
      RetireMove s s' host (some (.revoking now [] revoked)) (some (.revoked revoked))
  | lost (o : Option Retiring) : RetireMove s s' host o none

/-- One retirement moves, and the others stay. -/
theorem RetireMove.set {host : String} {x : Retiring} (hretiring : s'.retiring = Assoc.set s.retiring host x)
    (hmove : RetireMove s s' host (Assoc.get s.retiring host) (some x)) (host' : String) :
    RetireMove s s' host' (Assoc.get s.retiring host') (Assoc.get s'.retiring host') := by
  rw [hretiring, Assoc.get_set]
  split_ifs with hx
  · rw [hx]
    exact hmove
  · exact .same _

theorem RetireMove.erase {host : String} (hretiring : s'.retiring = Assoc.erase s.retiring host)
    (host' : String) : RetireMove s s' host' (Assoc.get s.retiring host') (Assoc.get s'.retiring host') := by
  rw [hretiring, Assoc.get_erase]
  split_ifs
  · exact .lost _
  · exact .same _

theorem RetireMove.stays (hretiring : s'.retiring = s.retiring) (host : String) :
    RetireMove s s' host (Assoc.get s.retiring host) (Assoc.get s'.retiring host) := by
  rw [hretiring]
  exact .same _

theorem revokeEntry_move (h : Sane s) {host gid : String} {now : ℕ} {todo revoked : List String}
    (hget : Assoc.get s.retiring host = some (.revoking now (gid :: todo) revoked)) (host' : String) :
    RetireMove s (revokeEntry s host gid now todo revoked) host' (Assoc.get s.retiring host')
      (Assoc.get (revokeEntry s host gid now todo revoked).retiring host') := by
  unfold revokeEntry
  cases hload : s.load gid with
  | none =>
    refine .set rfl ?_ host'
    rw [hget]
    refine .passed rfl fun r hr => ?_
    rw [hload] at hr
    cases hr
  | some r =>
    dsimp only
    split_ifs with hskip
    · refine .set rfl ?_ host'
      rw [hget]
      refine .passed rfl fun r' hr' hhost => ?_
      obtain rfl : r = r' := Option.some.inj (hload.symm.trans hr')
      exact hskip.resolve_left (not_not.mpr hhost)
    · refine .set rfl ?_ host'
      rw [hget]
      exact .ended hload (load_endGrant h hload now)

/-- **What a step does to a retirement.** -/
theorem step_retiring (sha : Digest) (configured : Bool) (h : Sane s) (e : Event) (host : String) :
    RetireMove s (step sha configured s e) host (Assoc.get s.retiring host)
      (Assoc.get (step sha configured s e).retiring host) := by
  unfold step
  split_ifs with hnow
  swap
  · exact .same _
  cases e with
  | retire =>
    dsimp only [act]
    split_ifs with hfree
    · refine .set rfl ?_ host
      rw [State.free, Option.isNone_iff_eq_none] at hfree
      rw [hfree]
      exact .began
    · exact .same _
  | revokeHost =>
    dsimp only [act]
    split
    next hget =>
      refine .set rfl ?_ host
      rw [hget]
      exact .listed hnow rfl
    next => exact .same _
  | revokeEntry =>
    dsimp only [act]
    split
    next now gid todo revoked hget =>
      split_ifs
      · exact revokeEntry_move h hget host
      · exact .erase rfl host
    next now revoked hget =>
      refine .set rfl ?_ host
      rw [hget]
      exact .finished rfl
    next => exact .same _
  | release =>
    dsimp only [act]
    split
    · exact .erase rfl host
    · exact .erase rfl host
    · exact .same _
  | restart => exact .lost _
  | create host' body gid code now =>
    exact act_create s host' body gid code now
      (P := fun s' => RetireMove s s' host (Assoc.get s.retiring host) (Assoc.get s'.retiring host)) (.same _)
      fun r => .stays (by rfl) host
  | sweep | sweepEntry | sweepIndex | sweepNext | mintTicket | stepEnd =>
    dsimp only [act, sweepEntry, mintTicket, stepEnd, ackEnd]
    repeat' split
    all_goals exact .stays (by rfl) host
  | _ =>
    exact .stays (act_plain h _ rfl).retiring host

/-! ## Sane states -/

theorem sane_step (h : Sane s) (e : Event) : Sane (step sha configured s e) := by
  have hlater := step_rest sha configured h e
  have hload : ∀ gid r, (step sha configured s e).load gid = some r → r.gid = gid ∧
      gid ∈ (step sha configured s e).gids := by
    intro gid r hload
    obtain ⟨o, ho, hfate⟩ := load_step h e hload
    cases hfate with
    | same => exact ⟨h.keyed gid r ho, hlater.gids (h.known gid r ho)⟩
    | rewritten hrewrites =>
      exact ⟨hrewrites.changes.ids.1.trans (h.keyed gid _ ho), hlater.gids (h.known gid _ ho)⟩
    | created _ _ _ hgid' => exact ⟨rfl, hgid'⟩
  refine ⟨fun gid r hr => (hload gid r hr).1, fun gid r hr => (hload gid r hr).2, ?_, ?_⟩
  · intro sw hsw
    obtain ⟨i, hi⟩ := List.getElem?_of_mem hsw
    have hmove := step_sweep sha configured h e i
    rw [hi] at hmove
    exact (hmove.now_le fun sw' hsw' => h.swept sw' (List.mem_of_getElem? hsw')).trans hlater.clock
  · intro host now todo revoked hget
    have hmove := step_retiring sha configured h e host
    rw [hget] at hmove
    refine le_trans ?_ hlater.clock
    generalize ho : Assoc.get s.retiring host = o at hmove
    cases hmove with
    | same => exact h.revoking host now todo revoked ho
    | listed hnow => exact hnow
    | passed | ended => exact h.revoking host now _ _ ho

/-- The state after a run from the first start. -/
def reached (sha : Digest) (configured : Bool) (es : List Event) : State := Run.exec (step sha configured) init es

theorem reached_append (sha : Digest) (configured : Bool) (es fs : List Event) :
    reached sha configured (es ++ fs) = Run.exec (step sha configured) (reached sha configured es) fs :=
  Run.exec_append ..

theorem reached_sane (sha : Digest) (configured : Bool) (es : List Event) : Sane (reached sha configured es) :=
  Run.exec_inv_all (I := Sane) (fun _ e h => sane_step h e) es sane_init

end DenEdge.Grants
