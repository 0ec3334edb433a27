import DenEdge.Grants.Tasks

/-!
# Guest grants are final and bounded

Along every run: a grant that was revoked answers no secret again, the first redeem of a grant is its only one, a
device is added only where there is a slot, a ticket adds one device at most, a code that was replaced redeems
nothing, and once a library's retirement has revoked its grants none of them is live while the retirement has the
library's slot.
-/

namespace DenEdge.Grants

variable {sha : Digest} {configured : Bool} {s s' : State}

/-! ## What stays true of a grant -/

/-- The gid was drawn, and what is kept of the grant has a property. -/
def Settled (P : Record → Prop) (gid : String) (s : State) : Prop :=
  gid ∈ s.gids ∧ ∀ r, s.load gid = some r → P r

variable {gid device : String} {now : ℕ}
variable {P : Record → Prop}

theorem settled_of_load (h : Sane s) {r : Record} (hload : s.load gid = some r) (hr : P r) :
    Settled P gid s := by
  refine ⟨h.known gid r hload, fun r' hr' => ?_⟩
  obtain rfl : r = r' := Option.some.inj (hload.symm.trans hr')
  exact hr

theorem settled_step (h : Sane s) {e : Event}
    (hP : ∀ r r', Rewrites sha s (step sha configured s e) e r r' → P r → P r') (hs : Settled P gid s) :
    Settled P gid (step sha configured s e) := by
  refine ⟨(step_rest sha configured h e).gids hs.1, fun r hload => ?_⟩
  obtain ⟨o, ho, hfate⟩ := load_step h e hload
  cases hfate with
  | same => exact hs.2 r ho
  | rewritten hrewrites => exact hP _ _ hrewrites (hs.2 _ ho)
  | created _ _ hgid => exact absurd hs.1 hgid

/-- What no rewrite of a record undoes stays true of the grant: its gid is not drawn again. -/
theorem exec_settled (hP : ∀ s s' e r r', Rewrites sha s s' e r r' → P r → P r') (h : Sane s)
    (hs : Settled P gid s) (es : List Event) : Settled P gid (Run.exec (step sha configured) s es) := by
  refine (Run.exec_inv_all (I := fun s => Sane s ∧ Settled P gid s)
    (fun s e hi => ⟨sane_step hi.1 e, ?_⟩) es ⟨h, hs⟩).2
  exact settled_step hi.1 (fun r r' => hP s _ e r r') hi.2

/-- Every code hash is of a code that was drawn. -/
def Coded (sha : Digest) (s : State) : Prop :=
  ∀ gid r, s.load gid = some r → ∃ code ∈ s.codes, r.codeHash = sha.of code

theorem coded_step (h : Sane s) (hcoded : Coded sha s) (e : Event) : Coded sha (step sha configured s e) := by
  intro gid r hload
  have hcodes := (step_rest sha configured h e).codes
  obtain ⟨o, ho, hfate⟩ := load_step h e hload
  cases hfate with
  | same =>
    obtain ⟨code, hcode, heq⟩ := hcoded gid r ho
    exact ⟨code, hcodes hcode, heq⟩
  | rewritten hrewrites =>
    rcases hrewrites.changes.codeHash with hsame | ⟨code, -, hdrawn, heq⟩
    · obtain ⟨code, hcode, heq⟩ := hcoded gid _ ho
      exact ⟨code, hcodes hcode, hsame.trans heq⟩
    · exact ⟨code, hdrawn, heq⟩
  | created _ _ _ _ _ hcode' => exact ⟨_, hcode', rfl⟩

theorem reached_coded (sha : Digest) (configured : Bool) (es : List Event) :
    Coded sha (reached sha configured es) := by
  refine (Run.exec_inv_all (I := fun s => Sane s ∧ Coded sha s)
    (fun s e hi => ⟨sane_step hi.1 e, coded_step hi.1 hi.2 e⟩) es ⟨sane_init, ?_⟩).2
  intro gid r hload
  cases hload

/-- A code that was drawn, and is not the grant's, is not the grant's again. -/
theorem exec_replaced {code : String} (h : Sane s) (hcode : code ∈ s.codes)
    (hs : Settled (fun r => r.codeHash ≠ sha.of code) gid s) (es : List Event) :
    Settled (fun r => r.codeHash ≠ sha.of code) gid (Run.exec (step sha configured) s es) := by
  refine (Run.exec_inv_all
    (I := fun s => Sane s ∧ code ∈ s.codes ∧ Settled (fun r => r.codeHash ≠ sha.of code) gid s)
    (fun s e hi => ⟨sane_step hi.1 e, (step_rest sha configured hi.1 e).codes hi.2.1, ?_⟩) es ⟨h, hcode, hs⟩).2.2
  refine settled_step hi.1 (fun r r' hrewrites hne => ?_) hi.2.2
  rcases hrewrites.changes.codeHash with hsame | ⟨code', hfresh, -, heq⟩
  · rw [hsame]
    exact hne
  · rw [heq]
    intro hsha
    exact hfresh (sha.injective hsha ▸ hi.2.1)

theorem redeem_eq_none {code : String} (hne : ∀ r, s.load gid = some r → r.codeHash ≠ sha.of code) :
    redeem sha s gid code device now = none := by
  unfold redeem
  cases hload : s.load gid with
  | none => rfl
  | some r =>
    show (r.redeem _ _ _).map _ = none
    rw [Record.redeem, if_pos (.inl (hne r hload))]
    rfl

theorem authenticate_revoked {secret : String} (hrevoked : ∀ r, s.load gid = some r → r.revokedAt.isSome = true) :
    authenticate sha s gid secret now = .notFound := by
  unfold authenticate
  cases hload : s.load gid with
  | none => rfl
  | some r => exact if_pos (.inr (hrevoked r hload))

/-! ## Tickets -/

/-- The tickets that stand were minted. -/
def Minted (sha : Digest) (s : State) : Prop := ∀ t ∈ s.tickets, ∃ ticket ∈ s.minted, t.1 = sha.of ticket

/-- A ticket that was minted and does not stand. -/
def Spent (sha : Digest) (ticket : String) (s : State) : Prop :=
  ticket ∈ s.minted ∧ Assoc.get s.tickets (sha.of ticket) = none

theorem minted_step (h : Sane s) (hminted : Minted sha s) (e : Event) : Minted sha (step sha configured s e) := by
  intro t ht
  have hold : t ∈ s.tickets → ∃ ticket ∈ (step sha configured s e).minted, t.1 = sha.of ticket := by
    intro hmem
    obtain ⟨ticket, hticket, heq⟩ := hminted t hmem
    exact ⟨ticket, (step_rest sha configured h e).minted hticket, heq⟩
  rcases (step_rest sha configured h e).tickets with hsub | ⟨ticket, -, hticket, hsub⟩
  · exact hold (hsub t ht)
  · rcases hsub t ht with hmem | heq
    · exact hold hmem
    · exact ⟨ticket, hticket, heq⟩

variable {ticket : String}

theorem spent_step (h : Sane s) (hspent : Spent sha ticket s) (e : Event) :
    Spent sha ticket (step sha configured s e) := by
  refine ⟨(step_rest sha configured h e).minted hspent.1, Assoc.get_eq_none.mpr fun t ht => ?_⟩
  have hold := Assoc.get_eq_none.mp hspent.2
  rcases (step_rest sha configured h e).tickets with hsub | ⟨ticket', hfresh, -, hsub⟩
  · exact hold t (hsub t ht)
  · rcases hsub t ht with hmem | heq
    · exact hold t hmem
    · rw [heq]
      intro hsha
      exact hfresh (sha.injective hsha ▸ hspent.1)

/-- A device is added to some grant between two states. -/
def Adds (s s' : State) : Prop :=
  ∃ gid r r', s.load gid = some r ∧ s'.load gid = some r' ∧ r.devices.length < r'.devices.length

/-- Two states with the same records. -/
theorem not_adds_of_eq (hrecords : s'.records = s.records) : ¬ Adds s s' := by
  rintro ⟨gid, r, r', hload, hload', hlt⟩
  rw [State.load, hrecords] at hload'
  obtain rfl : r = r' := Option.some.inj (hload.symm.trans hload')
  exact lt_irrefl _ hlt

theorem redeemTicket_spent (hspent : Spent sha ticket s) :
    ¬ Adds s (step sha configured s (.redeemTicket ticket device now)) := by
  have hnone : redeemTicket sha s ticket device now = none := by
    rw [redeemTicket, hspent.2]
    rfl
  apply not_adds_of_eq
  rw [step]
  split_ifs
  · show ((redeemTicket sha s ticket device now).getD s).records = s.records
    rw [hnone]
    rfl
  · rfl

/-- A ticket that adds a device is spent with it. -/
theorem spent_of_adds (hminted : Minted sha s)
    (hadds : Adds s (step sha configured s (.redeemTicket ticket device now))) :
    Spent sha ticket (step sha configured s (.redeemTicket ticket device now)) := by
  by_cases hnow : (Event.redeemTicket ticket device now).now ≤ s.clock
  · have hstep : step sha configured s (.redeemTicket ticket device now) =
        (redeemTicket sha s ticket device now).getD s := by
      rw [step, if_pos hnow]
      rfl
    rw [hstep] at hadds ⊢
    cases hredeem : redeemTicket sha s ticket device now with
    | none =>
      rw [hredeem] at hadds
      exact absurd hadds (not_adds_of_eq rfl)
    | some s' =>
      obtain ⟨t, r, r', ht, -, -, rfl⟩ := redeemTicket_spec hredeem
      obtain ⟨ticket', hticket', heq⟩ := hminted _ (Assoc.mem_of_get ht)
      refine ⟨?_, ?_⟩
      · show ticket ∈ s.minted
        rw [sha.injective heq]
        exact hticket'
      · show Assoc.get (Assoc.erase s.tickets (sha.of ticket)) (sha.of ticket) = none
        rw [Assoc.get_erase, if_pos rfl]
  · rw [step, if_neg hnow] at hadds
    exact absurd hadds (not_adds_of_eq rfl)

/-! ## Retirements -/

/-- The gids a sweep is still to look at. -/
def Sweep.todo (sw : Sweep) : List String :=
  match sw.phase with
  | .scanning todo _ _ => todo
  | .ending _ => []

/-- Every record is in the index under its host, and a sweep takes out of the index only what has no record and
never will again. -/
structure Listed (s : State) : Prop where
  listed : ∀ gid r, s.load gid = some r → ⟨gid, r.host⟩ ∈ s.index
  drawn : ∀ entry ∈ s.index, entry.gid ∈ s.gids
  todo : ∀ (i : ℕ) (sw : Sweep), s.sweeps[i]? = some sw → ∀ gid ∈ sw.todo, gid ∈ s.gids
  gone : ∀ (i : ℕ) (sw : Sweep), s.sweeps[i]? = some sw → ∀ gid ∈ sw.gone, gid ∈ s.gids ∧ s.load gid = none

/-- A record that is gone stays gone. -/
theorem gone_step (h : Sane s) (hgid : gid ∈ s.gids) (hload : s.load gid = none) (e : Event) :
    (step sha configured s e).load gid = none := by
  have hfate := step_fated sha configured h e gid
  rw [hload] at hfate
  generalize ho : (step sha configured s e).load gid = o at hfate
  cases hfate with
  | same => rfl
  | created _ _ hnew => exact absurd hgid hnew

theorem listed_step (h : Sane s) (hlisted : Listed s) (e : Event) : Listed (step sha configured s e) := by
  have hlater := step_rest sha configured h e
  have hindex := hlater.index
  refine ⟨?_, ?_, ?_, ?_⟩
  · intro gid r hload
    have hfate := step_fated sha configured h e gid
    rw [hload] at hfate
    -- a record that was there before has its entry, which is only taken out where there is none
    have hkept : ∀ r₀, s.load gid = some r₀ → r.host = r₀.host →
        ⟨gid, r.host⟩ ∈ (step sha configured s e).index := by
      intro r₀ ho hhost
      have hmem := hlisted.listed gid r₀ ho
      rw [← hhost] at hmem
      rcases hindex with hsame | ⟨entry, happ, -⟩ | ⟨i, sw, hi, hfilter⟩
      · rw [hsame]
        exact hmem
      · rw [happ]
        exact List.mem_append_left _ hmem
      · rw [hfilter, List.mem_filter]
        refine ⟨hmem, decide_eq_true fun hgone => ?_⟩
        have hnone := (hlisted.gone i sw hi gid hgone).2
        rw [ho] at hnone
        cases hnone
    generalize ho : s.load gid = o at hfate
    cases hfate with
    | same => exact hkept r ho rfl
    | rewritten hrewrites => exact hkept _ ho hrewrites.changes.ids.2
    | created _ _ _ _ _ _ happly hnew =>
      obtain ⟨_, _, _, _, rfl⟩ := Record.apply_spec happly
      rw [hnew]
      exact List.mem_concat_self
  · intro entry hentry
    rcases hindex with hsame | ⟨entry', happ, hdrawn⟩ | ⟨i, sw, -, hfilter⟩
    · rw [hsame] at hentry
      exact hlater.gids (hlisted.drawn entry hentry)
    · rw [happ] at hentry
      rcases List.mem_snoc.mp hentry with hold | rfl
      · exact hlater.gids (hlisted.drawn entry hold)
      · exact hdrawn
    · rw [hfilter] at hentry
      exact hlater.gids (hlisted.drawn entry (List.mem_of_mem_filter hentry))
  · intro i sw hi gid hgid
    have hmove := step_sweep sha configured h e i
    rw [hi] at hmove
    refine hlater.gids ?_
    generalize ho : s.sweeps[i]? = o at hmove
    cases hmove with
    | same => exact hlisted.todo i sw ho gid hgid
    | begun =>
      obtain ⟨entry, hentry, rfl⟩ := List.mem_map.mp hgid
      exact hlisted.drawn entry hentry
    | indexed => cases hgid
    | next => cases hgid
    | _ => exact hlisted.todo i _ ho gid (List.mem_cons_of_mem _ hgid)
  · intro i sw hi gid hgid
    have hmove := step_sweep sha configured h e i
    rw [hi] at hmove
    -- what was gone stays gone; what is new among it has just been found so
    have hold : ∀ sw', s.sweeps[i]? = some sw' → gid ∈ sw'.gone →
        gid ∈ (step sha configured s e).gids ∧ (step sha configured s e).load gid = none := by
      intro sw' ho hmem
      obtain ⟨hdrawn, hnone⟩ := hlisted.gone i sw' ho gid hmem
      exact ⟨hlater.gids hdrawn, gone_step h hdrawn hnone e⟩
    generalize ho : s.sweeps[i]? = o at hmove hold
    cases hmove with
    | same => exact hold sw rfl hgid
    | skipped => exact hold _ rfl hgid
    | missing _ hload' | reaped _ _ hload' =>
      rcases List.mem_snoc.mp hgid with hmem | rfl
      · exact hold _ rfl hmem
      · exact ⟨hlater.gids (hlisted.todo i _ ho _ List.mem_cons_self), hload'⟩
    | kept => exact hold _ rfl hgid
    | _ => cases hgid

/-- The grants of a host that a retirement is still to revoke. -/
def Retiring.left : Retiring → Option (List String)
  | .began => none
  | .revoking _ todo _ => some todo
  | .revoked _ => some []

/-- While a retirement has the slot, every grant of the host is revoked or on its list. -/
def Retired (s : State) : Prop :=
  ∀ host x left, Assoc.get s.retiring host = some x → x.left = some left →
    ∀ gid r, s.load gid = some r → r.host = host → gid ∈ left ∨ r.revokedAt.isSome = true

theorem retired_step (h : Sane s) (hlisted : Listed s) (hretired : Retired s) (e : Event) :
    Retired (step sha configured s e) := by
  intro host x left hget hleft gid r hload hhost
  have hmove := step_retiring sha configured h e host
  rw [hget] at hmove
  have hfate := step_fated sha configured h e gid
  rw [hload] at hfate
  -- the grant's record before: none is made while the slot is held, and one that is revoked stays so
  have hbefore : Assoc.get s.retiring host ≠ none → ∃ r₀, s.load gid = some r₀ ∧ r₀.host = host ∧
      (r₀.revokedAt.isSome = true → r.revokedAt.isSome = true) := by
    intro hheld
    generalize ho : s.load gid = o at hfate
    cases hfate with
    | same => exact ⟨r, rfl, hhost, fun hr => hr⟩
    | rewritten hrewrites =>
      refine ⟨_, rfl, hrewrites.changes.ids.2.symm.trans hhost, fun hr => ?_⟩
      obtain ⟨t, ht⟩ := Option.isSome_iff_exists.mp hr
      rw [hrewrites.revokedAt ht]
      rfl
    | created _ hfree _ _ _ _ happly =>
      obtain ⟨_, _, _, _, rfl⟩ := Record.apply_spec happly
      rw [State.free, Option.isNone_iff_eq_none] at hfree
      exact absurd (hhost ▸ hfree) hheld
  have hold : ∀ y todo, Assoc.get s.retiring host = some y → y.left = some todo →
      gid ∈ todo ∨ r.revokedAt.isSome = true := by
    intro y todo hy htodo
    obtain ⟨r₀, hload₀, hhost₀, hkeeps⟩ := hbefore (by rw [hy]; exact Option.some_ne_none _)
    exact (hretired host y todo hy htodo gid r₀ hload₀ hhost₀).imp_right hkeeps
  generalize ho : Assoc.get s.retiring host = o at hmove hbefore hold
  cases hmove with
  | same => exact hold x left rfl hleft
  | began => cases hleft
  | listed =>
    obtain ⟨r₀, hload₀, hhost₀, -⟩ := hbefore (Option.some_ne_none _)
    obtain rfl := Option.some.inj hleft
    refine .inl (List.mem_map.mpr ⟨⟨gid, host⟩, List.mem_filter.mpr ⟨?_, decide_eq_true rfl⟩, rfl⟩)
    rw [← hhost₀]
    exact hlisted.listed gid r₀ hload₀
  | passed _ hpass =>
    obtain rfl := Option.some.inj hleft
    rcases hold _ _ rfl rfl with hmem | hr
    · rcases List.mem_cons.mp hmem with rfl | hmem
      · obtain ⟨r₀, hload₀, hhost₀, hkeeps⟩ := hbefore (Option.some_ne_none _)
        exact .inr (hkeeps (hpass r₀ hload₀ hhost₀))
      · exact .inl hmem
    · exact .inr hr
  | ended _ hload' =>
    obtain rfl := Option.some.inj hleft
    rcases hold _ _ rfl rfl with hmem | hr
    · rcases List.mem_cons.mp hmem with rfl | hmem
      · right
        rw [hload] at hload'
        obtain ⟨_, heq, -⟩ := Record.endGrant_spec _ _
        rw [Option.some.inj hload', heq]
        rfl
      · exact .inl hmem
    · exact .inr hr
  | finished =>
    obtain rfl := Option.some.inj hleft
    exact hold _ _ rfl rfl

/-- What holds of every state reached. -/
structure Good (sha : Digest) (s : State) : Prop where
  sane : Sane s
  listed : Listed s
  retired : Retired s
  minted : Minted sha s

theorem good_step (h : Good sha s) (e : Event) : Good sha (step sha configured s e) :=
  ⟨sane_step h.sane e, listed_step h.sane h.listed e, retired_step h.sane h.listed h.retired e,
    minted_step h.sane h.minted e⟩

theorem good_init : Good sha init := by
  refine ⟨sane_init, ⟨?_, ?_, ?_, ?_⟩, ?_, ?_⟩ <;> simp [init, State.load, Retired, Minted]

theorem reached_good (sha : Digest) (configured : Bool) (es : List Event) :
    Good sha (reached sha configured es) :=
  Run.exec_inv_all (I := Good sha) (fun _ e h => good_step h e) es good_init

/-- A grant that is revoked is live at no time. -/
theorem Record.isLive_revoked {r : Record} (h : r.revokedAt.isSome = true) (now : ℕ) : r.isLive now = false := by
  unfold Record.isLive Record.status
  rw [if_pos h]
  rfl

/-- What a grant has once, and no rewrite takes from it, it has in every later state. -/
theorem reached_settled (hP : ∀ s s' e r r', Rewrites sha s s' e r r' → P r → P r') {r : Record}
    {es : List Event} (hload : (reached sha configured es).load gid = some r) (hr : P r) (fs : List Event) :
    Settled P gid (reached sha configured (es ++ fs)) := by
  have hsane := reached_sane sha configured es
  rw [reached_append]
  exact exec_settled hP hsane (settled_of_load hsane hload hr) fs

theorem reached_spent (es fs : List Event)
    (hadds : Adds (reached sha configured es)
      (reached sha configured (es ++ [.redeemTicket ticket device now]))) :
    Spent sha ticket (reached sha configured (es ++ .redeemTicket ticket device now :: fs)) := by
  rw [reached_append] at hadds ⊢
  have hspent := spent_of_adds (reached_good sha configured es).minted hadds
  refine (Run.exec_inv_all (I := fun s => Sane s ∧ Spent sha ticket s)
    (fun s e hi => ⟨sane_step hi.1 e, spent_step hi.1 hi.2 e⟩) fs
    ⟨sane_step (reached_sane sha configured es) _, hspent⟩).2

/-- **Guest grants are final and bounded.** In every run of the host's, the guests' and the sweeps' steps: a grant
that is revoked answers no secret in any later state; a first redeem stays the first; a step that adds a device to
a grant is one that presents a code or a ticket, and adds one, below the limit that then holds; a ticket that
added a device adds no other; a code that is no longer the grant's redeems nothing in any later state; and once a
retirement has revoked a library's grants, and while it has the library's slot, none of them is live. -/
theorem grants_are_final (sha : Digest) (configured : Bool) (es : List Event) :
    (∀ fs gid r secret now, (reached sha configured es).load gid = some r → r.revokedAt.isSome = true →
      authenticate sha (reached sha configured (es ++ fs)) gid secret now = .notFound) ∧
    (∀ fs gid r r' t, (reached sha configured es).load gid = some r → r.redeemedAt = some t →
      (reached sha configured (es ++ fs)).load gid = some r' → r'.redeemedAt = some t) ∧
    (∀ e gid r r', (reached sha configured es).load gid = some r →
      (reached sha configured (es ++ [e])).load gid = some r' → r.devices.length < r'.devices.length →
      Rewrites.Presents e ∧ r'.devices.length = r.devices.length + 1 ∧
        ∀ limit ∈ r.maxDevices, r.devices.length < limit) ∧
    (∀ fs ticket device device' now now',
      Adds (reached sha configured es) (reached sha configured (es ++ [.redeemTicket ticket device now])) →
      ¬ Adds (reached sha configured (es ++ .redeemTicket ticket device now :: fs))
        (reached sha configured (es ++ .redeemTicket ticket device now :: fs ++
          [.redeemTicket ticket device' now']))) ∧
    (∀ fs gs gid code r r' device now, (reached sha configured es).load gid = some r → r.codeHash = sha.of code →
      (reached sha configured (es ++ fs)).load gid = some r' → r'.codeHash ≠ sha.of code →
      redeem sha (reached sha configured (es ++ fs ++ gs)) gid code device now = none) ∧
    (∀ host gids, Assoc.get (reached sha configured es).retiring host = some (.revoked gids) →
      ∀ gid r, (reached sha configured es).load gid = some r → r.host = host → ∀ now, r.isLive now = false) := by
  refine ⟨?_, ?_, ?_, ?_, ?_, ?_⟩
  · intro fs gid r secret now hload hrevoked
    obtain ⟨t, ht⟩ := Option.isSome_iff_exists.mp hrevoked
    have hsettled := reached_settled (P := fun r => r.revokedAt = some t)
      (fun _ _ _ _ _ hrewrites hr => hrewrites.revokedAt hr) hload ht fs
    refine authenticate_revoked fun r' hr' => ?_
    rw [hsettled.2 r' hr']
    rfl
  · intro fs gid r r' t hload ht hload'
    exact (reached_settled (P := fun r => r.redeemedAt = some t)
      (fun _ _ _ _ _ hrewrites hr => hrewrites.changes.redeemedAt _ hr) hload ht fs).2 r' hload'
  · intro e gid r r' hload hload' hmore
    rw [reached_append] at hload'
    have hfate := step_fated sha configured (reached_sane sha configured es) e gid
    have hstep : (step sha configured (reached sha configured es) e).load gid = some r' := hload'
    rw [hstep, hload] at hfate
    cases hfate with
    | same => exact absurd hmore (lt_irrefl _)
    | rewritten hrewrites => exact hrewrites.changes.devices hmore
  · intro fs ticket device device' now now' hadds
    rw [reached_append _ _ (_ ++ _)]
    exact redeemTicket_spent (reached_spent es fs hadds)
  · intro fs gs gid code r r' device now hload hcode hload' hne
    refine redeem_eq_none fun r₁ hr₁ => ?_
    -- the code was drawn, for it was the grant's
    have hdrawn : code ∈ (reached sha configured (es ++ fs)).codes := by
      obtain ⟨code', hcode', heq⟩ := reached_coded sha configured es gid r hload
      obtain rfl : code = code' := sha.injective (hcode.symm.trans heq)
      rw [reached_append]
      exact (Run.exec_inv_all (I := fun s => Sane s ∧ code ∈ s.codes)
        (fun s e hi => ⟨sane_step hi.1 e, (step_rest sha configured hi.1 e).codes hi.2⟩) fs
        ⟨reached_sane sha configured es, hcode'⟩).2
    have hsane := reached_sane sha configured (es ++ fs)
    rw [reached_append _ _ (es ++ fs)] at hr₁
    exact (exec_replaced hsane hdrawn (settled_of_load hsane hload' hne) gs).2 r₁ hr₁
  · intro host gids hget gid r hload hhost now
    have hretired := (reached_good sha configured es).retired host _ [] hget rfl gid r hload hhost
    exact Record.isLive_revoked (hretired.resolve_left (List.not_mem_nil)) now

/-! ## Samples -/

def wholeBody : Body := ⟨true, .absent, .absent, .absent, .number 2⟩

/-- A grant is made and redeemed, its code is replaced, a ticket admits a second device, and the library is
retired. -/
def sampleLife : List Event :=
  [.create "host" wholeBody "0000000a" "code" 0, .redeem "0000000a" "code" "d1" 0,
   .newCode "host" "0000000a" .absent "new" 0,
    .askTicket "0000000a" "d1" 0, .mintTicket 0 "ticket" (fun _ => 0) 0, .redeemTicket "ticket" "d2" 0,
    .retire "host", .revokeHost "host" 0, .revokeEntry "host" true, .revokeEntry "host" true]

theorem grants_are_final_sample :
    (∃ r, (reached .plain true sampleLife).load "0000000a" = some r ∧ r.redeemedAt = some 0 ∧
      r.revokedAt = some 0 ∧ r.isLive 1 = false) ∧
    Adds (reached .plain true (sampleLife.take 5))
      (reached .plain true (sampleLife.take 5 ++ [.redeemTicket "ticket" "d2" 0])) ∧
    authenticate .plain (reached .plain true (sampleLife ++ [.tick 7])) "0000000a" "d1" 3 = .notFound := by
  obtain ⟨hrevoked, -, -, -, -, hretired⟩ := grants_are_final .plain true sampleLife
  have hload : (reached .plain true sampleLife).load "0000000a" =
      some ⟨"0000000a", "host", "new", [], some 2, 1209600000, none, none, some 0, some 0, some 0,
        false, none⟩ := by
    decide +kernel
  refine ⟨⟨_, hload, rfl, rfl, ?_⟩, ?_, hrevoked [.tick 7] _ _ "d1" 3 hload rfl⟩
  · exact hretired "host" ["0000000a"] (by decide +kernel) _ _ hload rfl 1
  · exact ⟨"0000000a",
      ⟨"0000000a", "host", "new", ["d1"], some 2, 1209600000, none, none, some 0, none, none, false, none⟩,
      ⟨"0000000a", "host", "new", ["d1", "d2"], some 2, 1209600000, none, none, some 0, none, none, false, none⟩,
      by decide +kernel, by decide +kernel, by decide⟩

end DenEdge.Grants
