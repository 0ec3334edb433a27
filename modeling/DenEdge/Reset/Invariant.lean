import DenEdge.Reset.Steps

/-!
# The invariant of key resets

What holds of every library in every state the machine reaches, from what one commit can do:

* the exclusive key names the owner of the current record, exactly while the record is live (`VaultOK.key`);
* every attempt that has a record or an owed sweep has an entry, so it never acquires again (`VaultOK.entry`,
  `VaultOK.swept`), and an active entry of a household's reset is its owner's (`VaultOK.active`);
* a live record's fence is its store's: a locked library is written by nobody (`VaultOK.fence`);
* a member retired under an attempt has a household that is retiring under it, or is retired (`LibsOK.markers`).
-/

namespace DenEdge.Reset

variable {hex : Hash → String} {libs libs' : Libraries}

/-! ## One store -/

structure VaultOK (v : Vault) : Prop where
  key : v.key = v.reset.bind fun r => if r.phase.live then some r.owner else none
  entry : ∀ r, v.reset = some r → (v.entries r.attempt).isSome
  swept : ∀ o, v.sweep = some o →
    (v.entries o.attempt).isSome ∧ ∀ r, v.reset = some r → r.attempt = o.attempt → r.phase = .aborted
  active : ActiveOK v
  /-- What a live record says of its store, the store says. -/
  fence : ∀ r, v.reset = some r → r.phase.live = true → r.fence = v.fence

variable {v v' : Vault} {r : Record} {s : Server} {e : Event} {id : String}

theorem VaultOK.key_live (h : VaultOK v) (hr : v.reset = some r) (hlive : r.phase.live = true) :
    v.key = some r.owner := by
  rw [h.key, hr]
  simp [hlive]

/-- The lock the decisions see is the record's: no other operation holds the key. -/
theorem VaultOK.lock (h : VaultOK v) {l : Lock} (hl : v.lock = some l) :
    ∃ r swept, v.reset = some r ∧ l = r.model swept := by
  have hkey := h.key
  unfold Vault.lock modelLock at hl
  cases hr : v.reset with
  | none =>
    rw [hr] at hl hkey
    rw [hkey] at hl
    cases hl
  | some r =>
    rw [hr] at hl hkey
    simp only [Option.bind_some] at hkey
    split_ifs at hkey with hlive
    · rw [hkey] at hl
      have hphase : r.phase ≠ .aborted := by
        intro hp
        rw [hp] at hlive
        cases hlive
      simp only [hphase, ne_eq, not_false_eq_true, true_or, and_self, if_true] at hl
      exact ⟨r, _, rfl, (Option.some.inj hl).symm⟩
    · rw [hkey] at hl
      simp only at hl
      split at hl
      · exact ⟨r, _, rfl, (Option.some.inj hl).symm⟩
      · cases hl

/-- A live record is the lock. -/
theorem VaultOK.lock_live (h : VaultOK v) (hr : v.reset = some r)
    (hlive : r.phase.live = true) : v.lock = some (r.model false) := by
  have hphase : r.phase ≠ .aborted := by
    intro hp
    rw [hp] at hlive
    cases hlive
  unfold Vault.lock modelLock
  rw [h.key_live hr hlive, hr]
  simp [hphase]

/-- A record replaced by one of the same attempt, with the key and the fence that go with it. -/
theorem VaultOK.replaced (h : VaultOK v) (hc : Commit s e id v v') {r' : Record} (hold : v.reset = some r)
    (hreset : v'.reset = some r') (hattempt : r'.attempt = r.attempt)
    (hkey : v'.key = if r'.phase.live then some r'.owner else none)
    (hphase : r.phase = .aborted → r'.phase = .aborted)
    (hsweep : v'.sweep = v.sweep ∨ (v'.sweep = some r.owed ∧ r'.phase = .aborted))
    (hfence : r'.phase.live = true → r'.fence = v'.fence) : VaultOK v' := by
  have hnew : ∀ r'', v'.reset = some r'' → r'' = r' := fun r'' hr'' => Option.some.inj (hr''.symm.trans hreset)
  refine ⟨by rw [hkey, hreset, Option.bind_some], ?_, ?_, hc.active h.active, ?_⟩
  · intro r'' hr''
    rw [hnew r'' hr'', hattempt]
    exact hc.entries _ (h.entry r hold)
  · intro o ho
    rcases hsweep with hsweep | ⟨hsweep, hended⟩
    · rw [hsweep] at ho
      refine ⟨hc.entries _ (h.swept o ho).1, fun r'' hr'' ha => ?_⟩
      cases hnew r'' hr''
      exact hphase ((h.swept o ho).2 r hold (hattempt ▸ ha))
    · cases hsweep.symm.trans ho
      refine ⟨hc.entries _ (h.entry r hold), fun r'' hr'' _ => ?_⟩
      rw [hnew r'' hr'', hended]
  · intro r'' hr''
    cases hnew r'' hr''
    exact hfence

theorem VaultOK.commit (h : VaultOK v) (hc : Commit s e id v v') : VaultOK v' := by
  cases hc.step with
  | opened r _ hnew _ howner hphase hfence hkey hreset hsweep hentry =>
    have hr : ∀ r', v'.reset = some r' → r' = r := fun r' hr' => Option.some.inj (hr'.symm.trans hreset)
    refine ⟨?_, ?_, ?_, hc.active h.active, ?_⟩
    · rw [hkey, hreset]
      simp [hphase, howner, Phase.live]
    · intro r' hr'
      rwa [hr r' hr']
    · intro o ho
      rw [hsweep] at ho
      have hold := h.swept o ho
      refine ⟨hc.entries _ hold.1, fun r' hr' ha => ?_⟩
      -- the swept attempt has an entry, the new one had none
      cases hr r' hr'
      rw [← ha, hnew] at hold
      exact absurd hold.1 (by simp)
    · intro r' hr' _
      rwa [hr r' hr']
  | carried r owner _ _ _ hold hlive hlive' _ hkey hreset hsweep hfence =>
    refine h.replaced hc hold hreset rfl ?_ (fun hp => ?_) (.inl hsweep) fun _ => ?_
    · rw [if_pos hlive']
      rcases hkey with hkey | ⟨hkey, rfl⟩
      · exact hkey
      · rw [hkey, h.key_live hold hlive]
    · rw [hp] at hlive
      cases hlive
    · exact (h.fence r hold hlive).trans hfence.symm
  | ended _ r' _ hold _ hkey hreset hattempt hended hsweep =>
    refine h.replaced hc hold hreset hattempt ?_ (fun _ => hended) (.inr ⟨hsweep, hended⟩) fun hlive => ?_
    · rw [hkey, hended]
      rfl
    · rw [hended] at hlive
      cases hlive
  | cleared _ r' hold _ hkey hreset hattempt hended hsweep =>
    refine h.replaced hc hold hreset hattempt ?_ (fun _ => hended) (.inl hsweep) fun hlive => ?_
    · rw [hkey, hended]
      rfl
    · rw [hended] at hlive
      cases hlive
  | swept _ _ _ _ _ hsweep =>
    subst hsweep
    exact ⟨h.key, h.entry, (nofun), h.active, h.fence⟩
  | written hfree hkey hreset hsweep =>
    refine ⟨by rw [hkey, hreset, ← h.key, hfree], fun r hr => hc.entries _ (h.entry r (hreset ▸ hr)), ?_,
      hc.active h.active, fun r hr hlive => ?_⟩
    · intro o ho
      rw [hsweep] at ho
      exact ⟨hc.entries _ (h.swept o ho).1, fun r hr => (h.swept o ho).2 r (hreset ▸ hr)⟩
    · -- a library that is written has no live record
      rw [h.key_live (hreset ▸ hr) hlive] at hfree
      cases hfree

theorem newVault_ok (token : Hash) (change : Change) : VaultOK (newVault token change) :=
  ⟨rfl, fun _ hr => by simp [newVault] at hr, fun _ ho => by simp [newVault] at ho,
    fun _ _ he => by simp [newVault] at he, fun _ hr => by simp [newVault] at hr⟩

/-! ## All libraries -/

/-- A household that has gone through its retirement door under an attempt, or is retired. -/
def Decided (libs : Libraries) (household attempt : String) : Prop :=
  (∃ v r, libs household = .stored v ∧ v.reset = some r ∧ r.role = .household ∧ r.attempt = attempt ∧
    r.phase = .retiring) ∨ ∃ m, libs household = .moved m

/-- An attempt that has ended on a household and will never be live there again. -/
def Ended (libs : Libraries) (household attempt : String) : Prop :=
  (∃ v, libs household = .stored v ∧ (v.entries attempt).isSome ∧
    ∀ r, v.reset = some r → r.attempt = attempt → r.phase = .aborted) ∨ ∃ m, libs household = .moved m

/-- A member's marker names a household that has decided for the attempt that locked the member. -/
def MarkerOK (libs : Libraries) : Marker → Prop
  | .bare _ => True
  | .exclusive _ t => t.role = .profile →
    ∃ household, t.household = some household ∧ Decided libs household t.acquired

structure LibsOK (libs : Libraries) : Prop where
  vaults : ∀ id v, libs id = .stored v → VaultOK v
  markers : ∀ id m, libs id = .moved m → MarkerOK libs m

/-- **A household's live lock is carried on or ended.** Carried on, it declares what it declared and stays
retiring if it was; ended, it leaves its own list. -/
theorem Commit.lived (hc : Commit s e id v v') (hr : v.reset = some r) (hrole : r.role = .household)
    (hlive : r.phase.live = true) :
    (∃ r', v'.reset = some r' ∧ r'.role = .household ∧ r'.phase.live = true ∧ r'.attempt = r.attempt ∧
        r'.owed = r.owed ∧ (r.phase = .retiring → r'.phase = .retiring)) ∨
      (r.phase ≠ .retiring ∧
        ∃ r', v'.reset = some r' ∧ r'.attempt = r.attempt ∧ r'.phase = .aborted ∧ v'.sweep = some r.owed) := by
  cases hc.step with
  | opened _ _ _ hfree => cases hlive.symm.trans (hfree r hr hrole)
  | carried _ _ _ _ _ hold _ hlive' hretiring _ hreset =>
    cases hr.symm.trans hold
    exact .inl ⟨_, hreset, hrole, hlive', rfl, rfl, hretiring⟩
  | ended _ r' _ hold hphase _ hreset hattempt hended hsweep =>
    cases hr.symm.trans hold
    refine .inr ⟨fun hp => ?_, r', hreset, hattempt, hended, hsweep⟩
    rw [hp] at hphase
    exact absurd hphase (by decide)
  | cleared _ _ hold hprofile =>
    -- a void lock is a member's
    cases hr.symm.trans hold
    cases hrole.symm.trans hprofile
  | swept _ _ _ _ _ hsweep =>
    subst hsweep
    exact .inl ⟨r, hr, hrole, hlive, rfl, rfl, fun hp => hp⟩
  | written _ _ hreset => exact .inl ⟨r, hreset.trans hr, hrole, hlive, rfl, rfl, fun hp => hp⟩

/-- A commit leaves an ended attempt ended. -/
theorem Commit.ended (hc : Commit s e id v v') {attempt : String} (hentry : (v.entries attempt).isSome)
    (hended : ∀ r, v.reset = some r → r.attempt = attempt → r.phase = .aborted) :
    ∀ r, v'.reset = some r → r.attempt = attempt → r.phase = .aborted := by
  intro r' hr' ha
  cases hc.step with
  | opened _ _ hnew _ _ _ _ _ hreset =>
    cases hr'.symm.trans hreset
    rw [← ha, hnew] at hentry
    cases hentry
  | carried r _ _ _ _ hold hlive _ _ _ hreset =>
    cases hr'.symm.trans hreset
    rw [hended r hold ha] at hlive
    cases hlive
  | ended _ _ _ _ _ _ hreset _ hended' | cleared _ _ _ _ _ hreset _ hended' =>
    cases hr'.symm.trans hreset
    exact hended'
  | swept _ _ _ _ _ hsweep =>
    subst hsweep
    exact hended r' hr' ha
  | written _ _ hreset => exact hended r' (hreset.symm.trans hr') ha

section

variable (h : LibStep libs libs')
include h

/-- What a step does to one library: nothing, a commit, a first write, or a retirement. -/
theorem LibStep.cases_at (id : String) :
    libs' id = libs id ∨ (∃ s e v v', libs id = .stored v ∧ Commit s e id v v' ∧ libs' id = .stored v') ∨
      (libs id = .absent ∧ ∃ token change, libs' id = .stored (newVault token change)) ∨
      (∃ v m, libs id = .stored v ∧ libs' id = .moved m ∧ MarkerOK libs m) := by
  cases h with
  | committed s e i v v' hv hc =>
    by_cases hid : id = i
    · subst hid
      exact .inr (.inl ⟨s, e, v, v', hv, hc, Function.update_self ..⟩)
    · exact .inl (Function.update_of_ne hid _ _)
  | created i token change hv =>
    by_cases hid : id = i
    · subst hid
      exact .inr (.inr (.inl ⟨hv, token, change, Function.update_self ..⟩))
    · exact .inl (Function.update_of_ne hid _ _)
  | deleted i _ v hv =>
    by_cases hid : id = i
    · subst hid
      exact .inr (.inr (.inr ⟨v, _, hv, Function.update_self .., trivial⟩))
    · exact .inl (Function.update_of_ne hid _ _)
  | retired i _ v _ _ hv _ hacquired hrole hhousehold hdecided =>
    by_cases hid : id = i
    · subst hid
      refine .inr (.inr (.inr ⟨v, _, hv, Function.update_self .., fun hp => ?_⟩))
      obtain ⟨household, house, record, hh, hhouse, hrecord, hrec, hattempt, hphase⟩ := hdecided (hrole ▸ hp)
      exact ⟨household, hhousehold.trans hh,
        .inl ⟨house, record, hhouse, hrecord, hrec, by rw [hacquired, hattempt], hphase⟩⟩
    · exact .inl (Function.update_of_ne hid _ _)

/-- A retired library keeps its marker. -/
theorem LibStep.moved {id : String} {m : Marker} (hm : libs id = .moved m) :
    libs' id = .moved m := by
  rcases h.cases_at id with heq | ⟨_, _, v, v', hv, -⟩ | ⟨hv, -⟩ | ⟨v, m', hv, -⟩
  · exact heq.trans hm
  all_goals cases hm.symm.trans hv

theorem LibStep.decided {household attempt : String}
    (hd : Decided libs household attempt) : Decided libs' household attempt := by
  rcases hd with ⟨v, r, hv, hr, hrole, hattempt, hphase⟩ | ⟨m, hm⟩
  · rcases h.cases_at household with heq | ⟨_, _, v₀, v', hv₀, hc, hv'⟩ | ⟨hv₀, -⟩ | ⟨v₀, m, -, hm, -⟩
    · exact .inl ⟨v, r, heq.trans hv, hr, hrole, hattempt, hphase⟩
    · cases hv.symm.trans hv₀
      rcases hc.lived hr hrole (by rw [hphase]; rfl) with
        ⟨r', hr', hrole', -, hattempt', -, hretiring⟩ | ⟨hnot, -⟩
      · exact .inl ⟨v', r', hv', hr', hrole', hattempt'.trans hattempt, hretiring hphase⟩
      · exact absurd hphase hnot
    · cases hv.symm.trans hv₀
    · exact .inr ⟨m, hm⟩
  · exact .inr ⟨m, h.moved hm⟩

theorem LibStep.ended {household attempt : String} (he : Ended libs household attempt) :
    Ended libs' household attempt := by
  rcases he with ⟨v, hv, hentry, hended⟩ | ⟨m, hm⟩
  · rcases h.cases_at household with heq | ⟨_, _, v₀, v', hv₀, hc, hv'⟩ | ⟨hv₀, -⟩ | ⟨v₀, m, -, hm, -⟩
    · exact .inl ⟨v, heq.trans hv, hentry, hended⟩
    · cases hv.symm.trans hv₀
      exact .inl ⟨v', hv', hc.entries _ hentry, hc.ended hentry hended⟩
    · cases hv.symm.trans hv₀
    · exact .inr ⟨m, hm⟩
  · exact .inr ⟨m, h.moved hm⟩

theorem MarkerOK.step {m : Marker} (hm : MarkerOK libs m) : MarkerOK libs' m := by
  cases m with
  | bare => trivial
  | exclusive =>
    intro hrole
    obtain ⟨household, hh, hd⟩ := hm hrole
    exact ⟨household, hh, h.decided hd⟩

end

/-- **Every step keeps the invariant.** -/
theorem LibsOK.step (hok : LibsOK libs) (h : LibStep libs libs') : LibsOK libs' := by
  constructor
  · intro id v hv
    rcases h.cases_at id with heq | ⟨_, _, v₀, v', hv₀, hc, hv'⟩ | ⟨-, token, change, hv'⟩ | ⟨v₀, m, -, hm, -⟩
    · exact hok.vaults id v (heq ▸ hv)
    · cases hv.symm.trans hv'
      exact (hok.vaults id v₀ hv₀).commit hc
    · cases hv.symm.trans hv'
      exact newVault_ok token change
    · cases hv.symm.trans hm
  · intro id m hm
    -- a marker is an old one, or the one this step writes
    rcases h.cases_at id with heq | ⟨_, _, v₀, v', -, -, hv'⟩ | ⟨-, token, change, hv'⟩ | ⟨v₀, m', hv₀, hm', hok'⟩
    · exact (hok.markers id m (heq ▸ hm)).step h
    · cases hm.symm.trans hv'
    · cases hm.symm.trans hv'
    · cases hm.symm.trans hm'
      exact hok'.step h

end DenEdge.Reset
