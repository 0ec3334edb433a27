import DenEdge.Grants.Machine

/-!
# What a step does to a record

Every write of a record is one of seven rewrites (`Rewrites`), and what a step does to the record of a grant is
one of those, its creation, its reaping, or nothing (`Fate`). Everything that is said of records along a run is
read off these two.
-/

namespace DenEdge.Grants

variable {sha : Digest} {configured : Bool} {s s' : State}

/-! ## Loads and saves -/

theorem load_save (s : State) (r : Record) (gid : String) :
    (s.save r).load gid = if gid = r.gid then some r else s.load gid := Assoc.get_set s.records r.gid gid r

/-- What holds of every state reached: a record is kept under its own gid, which was drawn, and a time that was
kept for later has been. -/
structure Sane (s : State) : Prop where
  keyed : ∀ gid r, s.load gid = some r → r.gid = gid
  known : ∀ gid r, s.load gid = some r → gid ∈ s.gids
  swept : ∀ sw ∈ s.sweeps, sw.now ≤ s.clock
  revoking : ∀ host now todo revoked,
    Assoc.get s.retiring host = some (.revoking now todo revoked) → now ≤ s.clock

theorem sane_init : Sane init := by
  refine ⟨?_, ?_, ?_, ?_⟩ <;> simp [init, State.load]

/-! ## Rewrites -/

/-- How a step rewrites a record. -/
inductive Rewrites (sha : Digest) (s s' : State) : Event → Record → Record → Prop where
  | update {host gid : String} {body : Body} {now : ℕ} {r r' : Record} (hgid : r.gid = gid)
      (howned : r.revokedAt = none) (happly : r.apply body now false = some r') :
      Rewrites sha s s' (.update host gid body now) r (r'.revive now)
  | newCode {host gid code : String} {field : Field} {now at_ : ℕ} {r r' : Record} (hgid : r.gid = gid)
      (howned : r.revokedAt = none) (hfresh : code ∉ s.codes) (hdrawn : code ∈ s'.codes)
      (hrecode : r.recode (sha.of code) at_ now = some r') :
      Rewrites sha s s' (.newCode host gid field code now) r r'
  | redeem {gid code device : String} {now : ℕ} {r r' : Record} (hgid : r.gid = gid)
      (hredeem : r.redeem (sha.of code) device now = some r') :
      Rewrites sha s s' (.redeem gid code device now) r r'
  | ticket {ticket device : String} {now : ℕ} {r r' : Record} {t : Ticket}
      (hget : Assoc.get s.tickets (sha.of ticket) = some t) (hpresent : r.present device now = some r') :
      Rewrites sha s s' (.redeemTicket ticket device now) r r'
  | endGrant (e : Event) {now : ℕ} (hnow : now ≤ s.clock) (r : Record) : Rewrites sha s s' e r (r.endGrant now)
  | mark (i : ℕ) {now : ℕ} {r r' : Record} {write isOver : Bool} (hnow : now ≤ s.clock)
      (hsweep : r.sweep now = .keep r' write isOver) : Rewrites sha s s' (.sweepEntry i true) r r'
  | ack (j : ℕ) {e : End} {event : ℕ} {how : How} {r : Record} (hend : s.ends[j]? = some e)
      (hphase : e.phase = .ack event how) (hgid : e.gid = r.gid) (hfor : r.remuxKillFor = some event) :
      Rewrites sha s s' (.stepEnd j true) r { r with remuxKillAcked := true }

namespace Record

variable {r r' : Record} {now : ℕ}

/-- A body changes when the code lapses, when access ends and how many devices there may be, and nothing else. -/
theorem apply_spec {body : Body} {creating : Bool} (h : r.apply body now creating = some r') :
    ∃ expires days until_ limit, r' = { r with
      codeExpiresAt := expires, accessDays := days, accessUntil := until_, maxDevices := limit } := by
  unfold apply at h
  split_ifs at h
  simp only [Option.bind_eq_bind, Option.bind_eq_some_iff] at h
  obtain ⟨r₁, h₁, r₂, h₂, r₃, h₃, h₄⟩ := h
  have hcode : ∃ expires, r₁ = { r with codeExpiresAt := expires } := by
    unfold applyCodeExpiresAt at h₁
    split at h₁
    · exact ⟨r.codeExpiresAt, (Option.some.inj h₁).symm⟩
    · obtain ⟨at_, -, rfl⟩ := Option.map_eq_some_iff.mp h₁
      exact ⟨at_, rfl⟩
    · cases h₁
    · cases h₁
  have hdays : ∃ days until_, r₂ = { r₁ with accessDays := days, accessUntil := until_ } := by
    unfold applyAccessDays at h₂
    split at h₂
    · exact ⟨r₁.accessDays, r₁.accessUntil, (Option.some.inj h₂).symm⟩
    · exact ⟨none, r₁.accessUntil, (Option.some.inj h₂).symm⟩
    · split_ifs at h₂
      exact ⟨_, none, (Option.some.inj h₂).symm⟩
    · cases h₂
  have huntil : ∃ days until_, r₃ = { r₂ with accessDays := days, accessUntil := until_ } := by
    unfold applyAccessUntil at h₃
    split at h₃
    · exact ⟨r₂.accessDays, r₂.accessUntil, (Option.some.inj h₃).symm⟩
    · exact ⟨r₂.accessDays, none, (Option.some.inj h₃).symm⟩
    · split_ifs at h₃
      exact ⟨none, _, (Option.some.inj h₃).symm⟩
    · cases h₃
  have hlimit : ∃ limit, r' = { r₃ with maxDevices := limit } := by
    unfold applyDevices at h₄
    split at h₄
    · exact ⟨r₃.maxDevices, (Option.some.inj h₄).symm⟩
    · exact ⟨none, (Option.some.inj h₄).symm⟩
    · split_ifs at h₄
      exact ⟨_, (Option.some.inj h₄).symm⟩
    · cases h₄
  obtain ⟨expires, rfl⟩ := hcode
  obtain ⟨_, _, rfl⟩ := hdays
  obtain ⟨days, until_, rfl⟩ := huntil
  obtain ⟨limit, rfl⟩ := hlimit
  exact ⟨expires, days, until_, limit, rfl⟩

theorem recode_spec {codeHash : String} {at_ : ℕ} (h : r.recode codeHash at_ now = some r') :
    ∃ limit, r' = { r with maxDevices := limit, codeHash := codeHash, codeExpiresAt := at_ } := by
  unfold recode at h
  split_ifs at h
  · exact ⟨_, (Option.some.inj h).symm⟩
  · exact ⟨r.maxDevices, (Option.some.inj h).symm⟩

/-- A redeem lets a known device back in, or takes a free slot. -/
theorem redeem_spec {codeHash device : String} (h : r.redeem codeHash device now = some r') :
    r' = r ∨ (r.devicesFull = false ∧
      r' = { r with devices := r.devices ++ [device], redeemedAt := some (r.redeemedAt.getD now) }) := by
  unfold redeem at h
  split_ifs at h with hbad hknown hfull
  · exact .inl (Option.some.inj h).symm
  · simp only [not_or, Bool.not_eq_true] at hfull
    exact .inr ⟨hfull.2, (Option.some.inj h).symm⟩

theorem present_spec {device : String} (h : r.present device now = some r') :
    r' = r ∨ (r.devicesFull = false ∧ r' = { r with devices := r.devices ++ [device] }) := by
  unfold present at h
  split_ifs at h with hbad hknown hfull
  · exact .inl (Option.some.inj h).symm
  · exact .inr ⟨by simpa using hfull, (Option.some.inj h).symm⟩

theorem endGrant_spec (r : Record) (now : ℕ) :
    ∃ acked, r.endGrant now = { r with
      revokedAt := some (r.revokedAt.getD now), remuxKillFor := some (r.revokedAt.getD now),
      remuxKillAcked := acked, devices := [] } ∧
        (acked = true → r.remuxKillFor = some (r.revokedAt.getD now) ∧ r.remuxKillAcked = true) := by
  unfold endGrant
  by_cases hfor : r.remuxKillFor ≠ some (r.revokedAt.getD now)
  · exact ⟨false, if_pos hfor, (nomatch ·)⟩
  · rw [not_not] at hfor
    refine ⟨r.remuxKillAcked, ?_, fun h => ⟨hfor, h⟩⟩
    rw [if_neg (not_not.mpr hfor), ← hfor]

/-- A record a sweep keeps says whose end is to be killed for, and nothing else of it changes. -/
theorem sweep_spec {write isOver : Bool} (h : r.sweep now = .keep r' write isOver) :
    (∃ killFor acked, r' = { r with remuxKillFor := killFor, remuxKillAcked := acked }) ∧
      r'.remuxKillFor = r.endedAt now ∧
      (r'.remuxKillAcked = true → r.remuxKillFor = r.endedAt now ∧ r.remuxKillAcked = true) ∧
      (write = false → r' = r) ∧ (isOver = true ↔ ∃ at_, r.due now = some at_) := by
  unfold sweep at h
  cases hended : r.endedAt now with
  | none =>
    simp only [hended, Swept.keep.injEq] at h
    obtain ⟨rfl, rfl, rfl⟩ := h
    refine ⟨⟨none, false, rfl⟩, rfl, (nomatch ·), fun hw => ?_, by simp [due, hended]⟩
    rw [Bool.or_eq_false_iff] at hw
    have hfor : r.remuxKillFor = none := by simpa using hw.1
    rw [← hfor, ← hw.2]
  | some ended =>
    simp only [hended] at h
    have hdue :
        r.due now = if (!(r.remuxKillFor = some ended && r.remuxKillAcked) && now < killUntil ended) = true
        then some ended else none := by
      rw [due, hended]
      rfl
    split_ifs at h with hreap hfor
    · -- an end that is new to the record
      obtain ⟨rfl, rfl, rfl⟩ := (Swept.keep.injEq ..).mp h
      refine ⟨⟨some ended, false, rfl⟩, rfl, (nomatch ·), fun hw => ?_, ?_⟩
      · simp [hfor] at hw
      · rw [hdue]
        simp [hfor, killUntil]
    · obtain ⟨rfl, rfl, rfl⟩ := (Swept.keep.injEq ..).mp h
      rw [not_not] at hfor
      refine ⟨⟨r.remuxKillFor, r.remuxKillAcked, rfl⟩, hfor, fun h => ⟨hfor, h⟩, fun _ => rfl, ?_⟩
      rw [hdue]
      simp [hfor, killUntil]

theorem endedAt_le {at_ : ℕ} (h : r.endedAt now = some at_) : r.revokedAt = some at_ ∨ at_ ≤ now := by
  unfold endedAt at h
  rcases Option.or_eq_some_iff.mp h with hr | ⟨-, hexp⟩
  · exact .inl hr
  · exact .inr (by simpa using (Option.filter_eq_some_iff.mp hexp).2)

end Record

/-- The event of a device that presents a code or a ticket. -/
def Rewrites.Presents : Event → Prop
  | .redeem .. | .redeemTicket .. => True
  | _ => False

/-- What a rewrite may do to a record, besides its terms. A device is added by a code or a ticket, one at a time,
and only where the limit leaves a slot; an end to kill for has been; and a kill is acknowledged where it was
before, for the same end, or where a call says so now. -/
structure Changes (sha : Digest) (s s' : State) (e : Event) (r r' : Record) : Prop where
  ids : r'.gid = r.gid ∧ r'.host = r.host
  redeemedAt : ∀ t, r.redeemedAt = some t → r'.redeemedAt = some t
  codeHash : r'.codeHash = r.codeHash ∨ ∃ code, code ∉ s.codes ∧ code ∈ s'.codes ∧ r'.codeHash = sha.of code
  revokedAt : r'.revokedAt = r.revokedAt ∨ ∃ now ≤ s.clock, r'.revokedAt = some (r.revokedAt.getD now)
  devices : r.devices.length < r'.devices.length → Rewrites.Presents e ∧
    r'.devices.length = r.devices.length + 1 ∧ ∀ limit ∈ r.maxDevices, r.devices.length < limit
  killFor : ∀ at_, r'.remuxKillFor = some at_ →
    r.remuxKillFor = some at_ ∨ r.revokedAt = some at_ ∨ at_ ≤ s.clock
  acked : r'.remuxKillAcked = true → (r.remuxKillAcked = true ∧ r'.remuxKillFor = r.remuxKillFor) ∨
    ∃ (j : ℕ) (c : End) (event : ℕ) (how : How), s.ends[j]? = some c ∧ c.phase = .ack event how ∧ c.gid = r.gid ∧
      r'.remuxKillFor = some event

namespace Rewrites

variable {e : Event} {r r' : Record}

theorem changes (h : Rewrites sha s s' e r r') : Changes sha s s' e r r' := by
  have hsame : Changes sha s s' e r r :=
    ⟨⟨rfl, rfl⟩, fun _ hr => hr, .inl rfl, .inl rfl, fun hmore => absurd hmore (lt_irrefl _),
      fun _ hat => .inl hat, fun hacked => .inl ⟨hacked, rfl⟩⟩
  have hslot : ∀ {device : String}, r.devicesFull = false →
      (r.devices ++ [device]).length = r.devices.length + 1 ∧
        ∀ limit ∈ r.maxDevices, r.devices.length < limit := by
    intro device hfull
    refine ⟨List.length_append, fun limit hlimit => ?_⟩
    rw [Record.devicesFull, Option.mem_def.mp hlimit, Option.any_some, decide_eq_false_iff_not, not_le] at hfull
    exact hfull
  cases h with
  | @update _ _ _ _ _ _ _ _ happly =>
    obtain ⟨_, _, _, _, rfl⟩ := Record.apply_spec happly
    unfold Record.revive
    split_ifs
    · exact { hsame with killFor := nofun, acked := nofun }
    · exact { hsame with }
  | newCode _ _ hfresh hdrawn hrecode =>
    obtain ⟨_, rfl⟩ := Record.recode_spec hrecode
    exact { hsame with codeHash := .inr ⟨_, hfresh, hdrawn, rfl⟩ }
  | redeem _ hredeem =>
    rcases Record.redeem_spec hredeem with rfl | ⟨hfull, rfl⟩
    · exact hsame
    · refine { hsame with redeemedAt := fun t hr => ?_, devices := fun _ => ⟨trivial, hslot hfull⟩ }
      -- the access clock starts with the first redeem
      show some (r.redeemedAt.getD _) = some t
      rw [hr]
      rfl
  | ticket _ hpresent =>
    rcases Record.present_spec hpresent with rfl | ⟨hfull, rfl⟩
    · exact hsame
    · exact { hsame with devices := fun _ => ⟨trivial, hslot hfull⟩ }
  | @endGrant _ now hnow =>
    obtain ⟨_, heq, hacked⟩ := r.endGrant_spec now
    rw [heq]
    refine { hsame with
      revokedAt := .inr ⟨now, hnow, rfl⟩
      devices := fun hmore => absurd hmore (Nat.not_lt_zero _)
      killFor := fun at_ hat => .inr ?_
      acked := fun h => .inl ⟨(hacked h).2, (hacked h).1.symm⟩ }
    obtain rfl : r.revokedAt.getD now = at_ := Option.some.inj hat
    cases r.revokedAt with
    | none => exact .inr hnow
    | some t => exact .inl rfl
  | mark _ hnow hsweep =>
    obtain ⟨⟨_, _, rfl⟩, hfor, hacked, -⟩ := Record.sweep_spec hsweep
    exact { hsame with
      killFor := fun _ hat => .inr ((Record.endedAt_le (hfor.symm.trans hat)).imp_right hnow.trans')
      acked := fun h => .inl ⟨(hacked h).2, hfor.trans (hacked h).1.symm⟩ }
  | ack j hend hphase hgid hfor =>
    exact { hsame with acked := fun _ => .inr ⟨j, _, _, _, hend, hphase, hgid, hfor⟩ }

theorem revokedAt (h : Rewrites sha s s' e r r') {t : ℕ} (hr : r.revokedAt = some t) : r'.revokedAt = some t := by
  rcases h.changes.revokedAt with hsame | ⟨now, -, heq⟩
  · exact hsame.trans hr
  · rw [heq, hr]
    rfl

end Rewrites

/-! ## Fates -/

/-- What a step does to the record of a grant. -/
inductive Fate (sha : Digest) (s s' : State) (e : Event) (gid : String) :
    Option Record → Option Record → Prop where
  | same (o : Option Record) : Fate sha s s' e gid o o
  | rewritten {r r' : Record} (hrewrites : Rewrites sha s s' e r r') : Fate sha s s' e gid (some r) (some r')
  | created {host code : String} {body : Body} {now : ℕ} {r : Record} (he : e = .create host body gid code now)
      (hfree : s.free host = true) (hgid : gid ∉ s.gids) (hgid' : gid ∈ s'.gids) (hcode : code ∉ s.codes)
      (hcode' : code ∈ s'.codes) (happly : (Record.new host now).apply body now true = some r)
      (hindex : s'.index = s.index ++ [⟨gid, host⟩]) :
      Fate sha s s' e gid none (some { r with gid := gid, codeHash := sha.of code })
  | reaped {i now : ℕ} {r : Record} (he : e = .sweepEntry i true) (hnow : now ≤ s.clock)
      (hreap : r.sweep now = .reap) : Fate sha s s' e gid (some r) none

/-- Every record has its fate. -/
def Fated (sha : Digest) (s : State) (e : Event) (s' : State) : Prop :=
  ∀ gid, Fate sha s s' e gid (s.load gid) (s'.load gid)

theorem Fated.refl (sha : Digest) (s : State) (e : Event) : Fated sha s e s := fun _ => .same _

theorem Fated.saved (h : Sane s) {e : Event} {gid : String} {r r' : Record} (hload : s.load gid = some r)
    (hrewrites : Rewrites sha s s' e r r') (hrecords : s'.records = (s.save r').records) : Fated sha s e s' := by
  intro x
  have hgid : r'.gid = gid := hrewrites.changes.ids.1.trans (h.keyed gid r hload)
  have hload' : s'.load x = if x = gid then some r' else s.load x := by
    rw [← hgid, ← load_save, State.load, State.load, hrecords]
  rw [hload']
  split_ifs with hx
  · rw [hx, hload]
    exact .rewritten hrewrites
  · exact .same _

theorem Fated.unsaved {e : Event} (hrecords : s'.records = s.records) : Fated sha s e s' := by
  intro x
  rw [State.load, State.load, hrecords]
  exact .same _

theorem owned_eq_some {host gid : String} {r : Record} (h : s.owned host gid = some r) :
    s.load gid = some r ∧ r.revokedAt = none := by
  obtain ⟨hload, hown⟩ := Option.filter_eq_some_iff.mp h
  rw [Bool.and_eq_true, decide_eq_true_eq, Option.isNone_iff_eq_none] at hown
  exact ⟨hload, hown.2⟩

section Routes

variable {host gid code device ticket : String} {body : Body} {field : Field} {now : ℕ}

/-- What a create that succeeds leaves. -/
theorem create_spec (hcreate : create sha s host body gid code now = some s') :
    ∃ r, (Record.new host now).apply body now true = some r ∧ gid ∉ s.gids ∧ code ∉ s.codes ∧
      s' = { s.save { r with gid := gid, codeHash := sha.of code } with
        index := s.index ++ [⟨gid, host⟩], gids := s.gids ++ [gid], codes := s.codes ++ [code] } := by
  unfold create at hcreate
  obtain ⟨r, happly, hr⟩ := Option.bind_eq_some_iff.mp hcreate
  dsimp only at hr
  split_ifs at hr with hmany hdrawn
  rw [not_or, not_or] at hdrawn
  exact ⟨r, happly, hdrawn.1, hdrawn.2.1, (Option.some.inj hr).symm⟩

theorem update_spec (h : update s host gid body now = some s') :
    ∃ r r', s.owned host gid = some r ∧ r.apply body now false = some r' ∧ s' = s.save (r'.revive now) := by
  obtain ⟨r, howned, hr⟩ := Option.bind_eq_some_iff.mp h
  obtain ⟨r', happly, rfl⟩ := Option.map_eq_some_iff.mp hr
  exact ⟨r, r', howned, happly, rfl⟩

theorem newCode_spec (h : newCode sha s host gid field code now = some s') :
    ∃ r r' at_, s.owned host gid = some r ∧ code ∉ s.codes ∧ r.recode (sha.of code) at_ now = some r' ∧
      s' = { s.save r' with codes := s.codes ++ [code] } := by
  obtain ⟨at_, -, hat⟩ := Option.bind_eq_some_iff.mp h
  obtain ⟨r, howned, hr⟩ := Option.bind_eq_some_iff.mp hat
  split_ifs at hr with hfresh
  obtain ⟨r', hrecode, rfl⟩ := Option.map_eq_some_iff.mp hr
  exact ⟨r, r', at_, howned, hfresh, hrecode, rfl⟩

theorem revoke_spec (h : revoke s host gid now = some s') :
    ∃ r, s.load gid = some r ∧ s' = (s.save (r.endGrant now)).endSessions gid none := by
  obtain ⟨r, hr, rfl⟩ := Option.map_eq_some_iff.mp h
  exact ⟨r, (Option.filter_eq_some_iff.mp hr).1, rfl⟩

theorem redeem_spec (h : redeem sha s gid code device now = some s') :
    ∃ r r', s.load gid = some r ∧ r.redeem (sha.of code) device now = some r' ∧ s' = s.save r' := by
  obtain ⟨r, hload, hr⟩ := Option.bind_eq_some_iff.mp h
  obtain ⟨r', hr', rfl⟩ := Option.map_eq_some_iff.mp hr
  exact ⟨r, r', hload, hr', rfl⟩

theorem redeemTicket_spec (h : redeemTicket sha s ticket device now = some s') :
    ∃ t r r', Assoc.get s.tickets (sha.of ticket) = some t ∧ s.load t.gid = some r ∧
      r.present device now = some r' ∧
      s' = { s.save r' with tickets := Assoc.erase s.tickets (sha.of ticket) } := by
  obtain ⟨t, ht, hr⟩ := Option.bind_eq_some_iff.mp h
  obtain ⟨r, hload, hr⟩ := Option.bind_eq_some_iff.mp hr
  obtain ⟨r', hr', rfl⟩ := Option.map_eq_some_iff.mp hr
  exact ⟨t, r, r', (Option.filter_eq_some_iff.mp ht).1, hload, hr', rfl⟩

theorem leave_spec (h : leave s gid now = some s') :
    ∃ r, s.load gid = some r ∧ s' = (s.save (r.endGrant now)).endSessions gid none := by
  obtain ⟨r, hr, rfl⟩ := Option.map_eq_some_iff.mp h
  exact ⟨r, hr, rfl⟩

section

variable (h : Sane s)
include h

theorem create_fated (hfree : s.free host = true) (hcreate : create sha s host body gid code now = some s') :
    Fated sha s (.create host body gid code now) s' := by
  obtain ⟨r, happly, hgid, hcode, rfl⟩ := create_spec hcreate
  intro x
  have hload : (s.save { r with gid := gid, codeHash := sha.of code }).load x =
      if x = gid then some { r with gid := gid, codeHash := sha.of code } else s.load x := load_save ..
  show Fate sha s _ _ x (s.load x) ((s.save _).load x)
  rw [hload]
  split_ifs with hx
  · have hnone : s.load x = none := by
      cases hload : s.load x with
      | none => rfl
      | some r => exact absurd (hx ▸ h.known x r hload) hgid
    rw [hnone, hx]
    exact .created rfl hfree hgid List.mem_concat_self hcode List.mem_concat_self happly rfl
  · exact .same _

theorem update_fated (hupdate : update s host gid body now = some s') :
    Fated sha s (.update host gid body now) s' := by
  obtain ⟨r, r', howned, happly, rfl⟩ := update_spec hupdate
  obtain ⟨hload, hrevoked⟩ := owned_eq_some howned
  exact .saved h hload (.update (h.keyed gid r hload) hrevoked happly) rfl

theorem newCode_fated (hnew : newCode sha s host gid field code now = some s') :
    Fated sha s (.newCode host gid field code now) s' := by
  obtain ⟨r, r', at_, howned, hfresh, hrecode, rfl⟩ := newCode_spec hnew
  obtain ⟨hload, hrevoked⟩ := owned_eq_some howned
  refine .saved h hload (.newCode (h.keyed gid r hload) hrevoked hfresh ?_ hrecode) rfl
  exact List.mem_concat_self

theorem revoke_fated (hnow : now ≤ s.clock) (hrevoke : revoke s host gid now = some s') :
    Fated sha s (.revoke host gid now) s' := by
  obtain ⟨r, hload, rfl⟩ := revoke_spec hrevoke
  exact .saved h hload (.endGrant _ hnow r) rfl

theorem redeem_fated (hredeem : redeem sha s gid code device now = some s') :
    Fated sha s (.redeem gid code device now) s' := by
  obtain ⟨r, r', hload, hr', rfl⟩ := redeem_spec hredeem
  exact .saved h hload (.redeem (h.keyed gid r hload) hr') rfl

theorem redeemTicket_fated (hredeem : redeemTicket sha s ticket device now = some s') :
    Fated sha s (.redeemTicket ticket device now) s' := by
  obtain ⟨t, r, r', hticket, hload, hr', rfl⟩ := redeemTicket_spec hredeem
  exact .saved h hload (.ticket hticket hr') rfl

theorem revokeEntry_fated {e : Event} (hnow : now ≤ s.clock) {todo revoked : List String} :
    Fated sha s e (revokeEntry s host gid now todo revoked) := by
  unfold revokeEntry
  cases hload : s.load gid with
  | none => exact .unsaved rfl
  | some r =>
    dsimp only
    split_ifs
    · exact .unsaved rfl
    · exact .saved h hload (.endGrant e hnow r) rfl

theorem sweepEntry_fated (i : ℕ) (hnow : now ≤ s.clock) {due : List (String × ℕ)}
    {todo ended gone : List String} :
    Fated sha s (.sweepEntry i true) (sweepEntry s i now due gid todo ended gone) := by
  unfold sweepEntry
  cases hload : s.load gid with
  | none => exact .unsaved rfl
  | some r =>
    dsimp only
    cases hsweep : r.sweep now with
    | reap =>
      intro x
      show Fate sha s _ _ x (s.load x) (Assoc.get (Assoc.erase s.records gid) x)
      rw [Assoc.get_erase]
      split_ifs with hx
      · rw [hx, hload]
        exact .reaped rfl hnow hsweep
      · exact .same _
    | keep _ write =>
      cases write with
      | false => exact .unsaved rfl
      | true => exact .saved h hload (.mark i hnow hsweep) rfl

theorem stepEnd_fated {j : ℕ} {e : End} (hend : s.ends[j]? = some e) (ok : Bool) :
    Fated sha s (.stepEnd j ok) (stepEnd configured s j e ok) := by
  unfold stepEnd
  split
  · exact .unsaved rfl
  · exact .unsaved rfl
  · exact .unsaved rfl
  · split_ifs <;> exact .unsaved rfl
  · split_ifs <;> exact .unsaved rfl
  next event how hphase =>
    cases ok with
    | false => exact .unsaved rfl
    | true =>
      rw [if_pos rfl, ackEnd]
      cases hload : s.load e.gid with
      | none => exact .unsaved rfl
      | some r =>
        dsimp only
        split_ifs with hfor
        · exact .saved h hload (.ack j hend hphase (h.keyed _ r hload).symm hfor) rfl
        · exact .unsaved rfl
  · exact .refl sha s _

end

end Routes

/-- What a step leaves where a route may answer nothing. -/
theorem getD_cases {P : State → Prop} {o : Option State} (hs : P s) (ho : ∀ s', o = some s' → P s') :
    P (o.getD s) := by
  cases o with
  | none => exact hs
  | some s' => exact ho s' rfl

/-- The same where the route is refused while the library is retired. -/
theorem route_cases {P : State → Prop} {o : Option State} {c : Prop} [Decidable c] (hs : P s)
    (ho : c → ∀ s', o = some s' → P s') : P (if c then o.getD s else s) := by
  split_ifs with hc
  · exact getD_cases hs (ho hc)
  · exact hs

/-- **The fate of every record in a step.** -/
theorem step_fated (sha : Digest) (configured : Bool) (h : Sane s) (e : Event) :
    Fated sha s e (step sha configured s e) := by
  unfold step
  split_ifs with hnow
  swap
  · exact .refl sha s e
  cases e with dsimp only [act]
  | create =>
    exact route_cases (.refl sha s _) fun hfree s' hs' => create_fated h hfree hs'
  | update =>
    exact route_cases (.refl sha s _) fun _ s' hs' => update_fated h hs'
  | newCode =>
    exact route_cases (.refl sha s _) fun _ s' hs' => newCode_fated h hs'
  | revoke =>
    exact route_cases (.refl sha s _) fun _ s' hs' => revoke_fated h hnow hs'
  | redeem => exact getD_cases (.refl sha s _) fun s' hs' => redeem_fated h hs'
  | redeemTicket => exact getD_cases (.refl sha s _) fun s' hs' => redeemTicket_fated h hs'
  | leave =>
    split
    next gid hi =>
      refine getD_cases (P := Fated sha s _) (.unsaved rfl) fun s' hs' => ?_
      obtain ⟨r, hload, rfl⟩ := leave_spec hs'
      exact .saved h hload (.endGrant _ hnow r) rfl
    next => exact .refl sha s _
  | revokeEntry host ok =>
    split
    next now gid todo revoked hget =>
      split_ifs
      · exact revokeEntry_fated h (h.revoking host now _ _ hget)
      · exact .unsaved rfl
    next => exact .unsaved rfl
    next => exact .refl sha s _
  | sweepEntry i ok =>
    split
    next now gid todo ended gone due hi =>
      cases ok with
      | true => exact sweepEntry_fated h i (h.swept _ (List.mem_of_getElem? hi))
      | false => exact .unsaved rfl
    next => exact .refl sha s _
  | stepEnd j ok =>
    split
    next e hend => exact stepEnd_fated h hend ok
    next => exact .refl sha s _
  | _ =>
    repeat' split
    all_goals exact .unsaved rfl

/-! ## The rest of the state -/

/-- A call to end the sessions of a grant that is revoked. -/
def Ended (s' : State) (e : End) : Prop :=
  e.sweep = none ∧ e.phase = .forget ∧ ∃ r, s'.load e.gid = some r ∧ r.revokedAt.isSome = true

/-- What the step of a request that changes one record leaves of everything else. -/
structure Plain (s s' : State) : Prop where
  clock : s.clock ≤ s'.clock
  index : s'.index = s.index
  retiring : s'.retiring = s.retiring
  sweeps : s'.sweeps = s.sweeps
  gids : s'.gids = s.gids
  codes : s.codes ⊆ s'.codes
  minted : s'.minted = s.minted
  acts : s'.acts = s.acts
  acks : s'.acks = s.acks
  tickets : ∀ t ∈ s'.tickets, t ∈ s.tickets
  ends : s'.ends = s.ends ∨ ∃ e, s'.ends = s.ends ++ [e] ∧ Ended s' e

theorem Plain.refl (s : State) : Plain s s :=
  ⟨le_rfl, rfl, rfl, rfl, rfl, fun _ => id, rfl, rfl, rfl, fun _ => id, .inl rfl⟩

def Event.plain : Event → Bool
  | .tick _ | .update .. | .newCode .. | .revoke .. | .redeem .. | .askTicket .. | .redeemTicket .. | .askLeave ..
  | .leave .. => true
  | _ => false

theorem load_endGrant (h : Sane s) {gid : String} {r : Record} (hload : s.load gid = some r) (now : ℕ) :
    (s.save (r.endGrant now)).load gid = some (r.endGrant now) := by
  obtain ⟨_, heq, -⟩ := r.endGrant_spec now
  have hgid : gid = (r.endGrant now).gid := by
    rw [heq]
    exact (h.keyed gid r hload).symm
  rw [load_save, if_pos hgid]

theorem ended_endGrant (h : Sane s) {gid : String} {r : Record} {now : ℕ} (hload : s.load gid = some r) :
    Ended ((s.save (r.endGrant now)).endSessions gid none) ⟨gid, none, .forget⟩ := by
  refine ⟨rfl, rfl, r.endGrant now, load_endGrant h hload now, ?_⟩
  obtain ⟨_, heq, -⟩ := r.endGrant_spec now
  rw [heq]
  rfl

theorem act_plain (h : Sane s) (e : Event) (hplain : e.plain = true) : Plain s (act sha configured s e) := by
  cases e with dsimp only [act]
  | tick ms =>
    exact { Plain.refl s with clock := Nat.le_add_right .., ends := .inl rfl }
  | update =>
    refine route_cases (.refl s) fun _ s' hs' => ?_
    obtain ⟨_, _, -, -, rfl⟩ := update_spec hs'
    exact { Plain.refl s with ends := .inl rfl }
  | newCode =>
    refine route_cases (.refl s) fun _ s' hs' => ?_
    obtain ⟨_, _, _, -, -, -, rfl⟩ := newCode_spec hs'
    exact { Plain.refl s with codes := List.subset_append_left .., ends := .inl rfl }
  | revoke =>
    refine route_cases (.refl s) fun _ s' hs' => ?_
    obtain ⟨r, hload, rfl⟩ := revoke_spec hs'
    exact { Plain.refl s with ends := .inr ⟨_, rfl, ended_endGrant h hload⟩ }
  | redeem =>
    refine getD_cases (.refl s) fun s' hs' => ?_
    obtain ⟨_, _, -, -, rfl⟩ := redeem_spec hs'
    exact { Plain.refl s with ends := .inl rfl }
  | redeemTicket =>
    refine getD_cases (.refl s) fun s' hs' => ?_
    obtain ⟨_, _, _, -, -, -, rfl⟩ := redeemTicket_spec hs'
    exact { Plain.refl s with tickets := fun t ht => List.mem_of_mem_filter ht, ends := .inl rfl }
  | leave i now =>
    split
    next gid hi =>
      refine getD_cases (P := Plain s) ?_ fun s' hs' => ?_
      · exact { Plain.refl s with ends := .inl rfl }
      · obtain ⟨r, hload, rfl⟩ := leave_spec hs'
        refine { Plain.refl s with ends := .inr ⟨_, rfl, ?_⟩ }
        exact ended_endGrant (s := { s with leaving := s.leaving.eraseIdx i }) { h with } hload
    next => exact .refl s
  | askTicket | askLeave =>
    split_ifs
    all_goals exact { Plain.refl s with ends := .inl rfl }
  | _ => cases hplain

def Sweep.gone (sw : Sweep) : List String :=
  match sw.phase with
  | .scanning _ _ gone => gone
  | .ending _ => []

/-- What a step does to the rest of the state. What was drawn stays drawn, and time goes on. Tickets go, or one
that was never minted before is added. A grant is added to the index by its create, or what a sweep found gone is
taken out. A call that is not done did what was done. -/
structure Rest (sha : Digest) (s s' : State) : Prop where
  gids : s.gids ⊆ s'.gids
  codes : s.codes ⊆ s'.codes
  minted : s.minted ⊆ s'.minted
  clock : s.clock ≤ s'.clock
  acks : s.acks ⊆ s'.acks
  tickets : (∀ t ∈ s'.tickets, t ∈ s.tickets) ∨ ∃ ticket, ticket ∉ s.minted ∧ ticket ∈ s'.minted ∧
    ∀ t ∈ s'.tickets, t ∈ s.tickets ∨ t.1 = sha.of ticket
  index : s'.index = s.index ∨ (∃ entry, s'.index = s.index ++ [entry] ∧ entry.gid ∈ s'.gids) ∨
    ∃ (i : ℕ) (sw : Sweep), s.sweeps[i]? = some sw ∧ s'.index = s.index.filter (·.gid ∉ sw.gone)
  acts : ∀ a ∈ s'.acts, a ∈ s.acts ∨
    ∃ (j : ℕ) (e : End), s.ends[j]? = some e ∧ e.phase.isDone = false ∧ e.gid = a.gid ∧ a.live = s.isLive e.gid

theorem Rest.refl (sha : Digest) (s : State) : Rest sha s s :=
  ⟨fun _ => id, fun _ => id, fun _ => id, le_rfl, fun _ => id, .inl fun _ => id, .inl rfl, fun _ => .inl⟩

theorem Rest.forget (sha : Digest) (s : State) (gid : String) : Rest sha s (s.forget gid) :=
  { Rest.refl sha s with tickets := .inl fun _ ht => List.mem_of_mem_filter ht }

theorem Plain.rest (h : Plain s s') : Rest sha s s' := by
  obtain ⟨hclock, hindex, -, -, hgids, hcodes, hminted, hacts, hacks, htickets, -⟩ := h
  refine ⟨?_, hcodes, ?_, hclock, ?_, .inl htickets, .inl hindex, ?_⟩
  · rw [hgids]
    exact fun _ => id
  · rw [hminted]
    exact fun _ => id
  · rw [hacks]
    exact fun _ => id
  · rw [hacts]
    exact fun _ => .inl

theorem stepEnd_rest {k : ℕ} {e : End} (hk : s.ends[k]? = some e) (ok : Bool) :
    Rest sha s (stepEnd configured s k e ok) := by
  have hdone : ∀ {kill : Bool}, e.phase.isDone = false →
      ∀ a ∈ s.acts ++ [⟨e.gid, kill, s.isLive e.gid⟩], a ∈ s.acts ∨
      ∃ (j : ℕ) (e : End), s.ends[j]? = some e ∧ e.phase.isDone = false ∧ e.gid = a.gid ∧
        a.live = s.isLive e.gid := by
    intro kill hdone a ha
    rcases List.mem_snoc.mp ha with hold | rfl
    · exact .inl hold
    · exact .inr ⟨k, e, hk, hdone, rfl, rfl⟩
  unfold stepEnd
  split
  · exact { Rest.forget sha s e.gid with }
  next hphase => exact { Rest.refl sha s with acts := hdone (by rw [hphase]; rfl) }
  · exact { Rest.refl sha s with }
  next event hphase =>
    split_ifs
    · exact { Rest.refl sha s with acts := hdone (by rw [hphase]; rfl) }
    · exact { Rest.refl sha s with }
  · split_ifs
    · exact { Rest.refl sha s with acks := List.subset_append_left .. }
    · exact { Rest.refl sha s with }
  · unfold ackEnd
    repeat' split
    all_goals exact { Rest.refl sha s with }
  · exact .refl sha s

theorem step_rest (sha : Digest) (configured : Bool) (h : Sane s) (e : Event) :
    Rest sha s (step sha configured s e) := by
  unfold step
  split_ifs
  swap
  · exact .refl sha s
  cases e with
  | tick | update | newCode | revoke | redeem | askTicket | redeemTicket | askLeave | leave =>
    exact (act_plain h _ rfl).rest
  | create =>
    dsimp only [act]
    refine route_cases (.refl sha s) fun _ s' hs' => ?_
    obtain ⟨r, -, -, -, rfl⟩ := create_spec hs'
    exact { Rest.refl sha s with
      gids := List.subset_append_left ..
      codes := List.subset_append_left ..
      index := .inr (.inl ⟨_, rfl, List.mem_concat_self⟩) }
  | mintTicket _ ticket =>
    dsimp only [act]
    split
    · split_ifs with hminted
      · exact .refl sha s
      · refine { Rest.refl sha s with
          minted := List.subset_append_left ..
          tickets := .inr ⟨ticket, hminted, List.mem_concat_self, fun t ht => ?_⟩ }
        rcases Assoc.mem_set ht with ht | rfl
        · exact .inl (List.mem_of_mem_filter (List.mem_of_mem_filter ht))
        · exact .inr rfl
    · exact .refl sha s
  | sweepIndex i ok =>
    dsimp only [act]
    split
    next hi =>
      cases ok with
      | true => exact { Rest.refl sha s with index := .inr (.inr ⟨i, _, hi, rfl⟩) }
      | false => exact { Rest.refl sha s with }
    next => exact .refl sha s
  | stepEnd k ok =>
    dsimp only [act]
    split
    next e hk => exact stepEnd_rest hk ok
    next => exact .refl sha s
  | restart => exact { Rest.refl sha s with tickets := .inl fun t ht => nomatch ht }
  | _ =>
    dsimp only [act, revokeEntry, sweepEntry]
    repeat' split
    all_goals first | exact { Rest.refl sha s with } | exact { Rest.forget sha s _ with }

/-- The fate of a record that is there after a step. -/
theorem load_step (h : Sane s) (e : Event) {gid : String} {r : Record}
    (hload : (step sha configured s e).load gid = some r) :
    ∃ o, s.load gid = o ∧ Fate sha s (step sha configured s e) e gid o (some r) := by
  have hfate := step_fated sha configured h e gid
  rw [hload] at hfate
  exact ⟨_, rfl, hfate⟩

end DenEdge.Grants
