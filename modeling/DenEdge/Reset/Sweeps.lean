import DenEdge.Reset.Frozen
import DenEdge.Reset.Member

/-!
# What a household owes, and what its sweeps delete

A reset that ends without retiring owes the deletion of the successors it declared and that were not there before
it. The household keeps one list of them, which a sweep works through and then clears.

* `Tracked`: an owed successor is gone, or is named in the list and still ahead of every sweep of that list.
  `owed_successor_kept` is the result: it holds where no reset ends over a list that is still owed.
* `Spared`: what a live reset declares is in no list and ahead of no sweep. `sweep_spares_live_reset` is the
  result: it holds where no reset declares what is still to be swept.
-/

namespace DenEdge.Reset

variable {hex : Hash → String} {s : Server}

variable {x : String} {e : Event}

theorem Record.mem_owed {record : Record} :
    x ∈ record.owed.successors ↔ x ∈ record.declared ∧ x ∉ record.preexisting := by
  simp [Record.owed, Record.declared]

/-- No library is stored there. -/
def Library.Gone (library : Library) : Prop := library.vault = none

instance (library : Library) : Decidable library.Gone := by
  unfold Library.Gone
  infer_instance

/-- A library that is gone and not written stays gone. -/
theorem step_gone (hok : ServerOK s) (hgone : (s.libs x).Gone)
    (hwrite : s.libs x = .absent → ∀ token change, e ≠ .write x token change) : ((s.step hex e).libs x).Gone := by
  cases hl : s.libs x with
  | absent =>
    rcases step_absent hok.libs hl e with habsent | ⟨token, change, he, -⟩
    · rw [habsent]
      rfl
    · exact absurd he (hwrite hl token change)
  | stored v =>
    rw [hl] at hgone
    cases hgone
  | moved m =>
    rw [(step_libSteps hok e).moved hl]
    rfl

/-! ## A live household lock across an event -/

variable {id : String}
variable {v v' : Vault}

/-- **Where a household's live lock comes from:** it was live before and declared the same, or a request acquired
it just now; either way the list is the one before, or a sweep is through with it. -/
theorem Commit.live_from {r' : Record} (hc : Commit s e id v v') (hr' : v'.reset = some r')
    (hrole : r'.role = .household) (hlive : r'.phase.live = true) :
    (v'.sweep = v.sweep ∨ v'.sweep = none) ∧
      ((∃ r, v.reset = some r ∧ r.role = .household ∧ r.phase.live = true ∧ r.declared = r'.declared) ∨
        (v.entries r'.attempt = none ∧ e.Opens id r')) := by
  cases hc.step with
  | opened _ hevent hnew _ _ _ _ _ hreset hsweep =>
    cases hr'.symm.trans hreset
    exact ⟨.inl hsweep, .inr ⟨hnew, hevent hrole⟩⟩
  | carried r _ _ _ _ hold hlive' _ _ _ hreset hsweep =>
    cases hr'.symm.trans hreset
    exact ⟨.inl hsweep, .inl ⟨r, hold, hrole, hlive', rfl⟩⟩
  | ended _ _ _ _ _ _ hreset _ hended | cleared _ _ _ _ _ hreset _ hended =>
    cases hr'.symm.trans hreset
    rw [hended] at hlive
    cases hlive
  | swept _ _ _ _ _ hsweep =>
    subst hsweep
    exact ⟨.inr rfl, .inl ⟨r', hr', hrole, hlive, rfl⟩⟩
  | written _ _ hreset hsweep => exact ⟨.inl hsweep, .inl ⟨r', hreset.symm.trans hr', hrole, hlive, rfl⟩⟩

/-! ## What is owed stays listed -/

/-- The list of a library that is stored. -/
def Server.owes (s : Server) (id : String) : Option Owed := (s.libs id).vault.bind Vault.sweep

theorem Server.owes_stored (hv : s.libs id = .stored v) : s.owes id = v.sweep := by
  rw [Server.owes, hv]
  rfl

/-- The event opens, moves on or ends the reset of a library; one that is refused or a repeat does not. -/
def Server.Resets (hex : Hash → String) (s : Server) (e : Event) (id : String) : Prop :=
  ((s.step hex e).libs id).reset ≠ (s.libs id).reset

instance (s : Server) (e : Event) (id : String) : Decidable (s.Resets hex e id) :=
  inferInstanceAs (Decidable (_ ≠ _))

/-- No reset of a household ends, and no household is retired, while it still owes a list. -/
def KeepsOwed (hex : Hash → String) (s : Server) (e : Event) : Prop :=
  (∀ id ∈ e.target s, ((s.step hex e).libs id).marker.isSome → s.owes id = none) ∧
    match e with
    | .abort r => s.Resets hex e r.id → s.owes r.id = none
    | .post p => p.body.purpose ≠ PURPOSE → p.proof = none → s.Resets hex e p.id → s.owes p.id = none
    | _ => True

instance (s : Server) (e : Event) : Decidable (KeepsOwed hex s e) := by
  unfold KeepsOwed
  cases e <;> infer_instance

/-- An attempt of a household that is over. -/
def attemptOver (libs : Libraries) (household attempt : String) : Bool :=
  match libs household with
  | .stored v => (v.entries attempt).isSome && v.reset.all fun r => r.attempt ≠ attempt || r.phase = .aborted
  | .moved _ => true
  | .absent => false

/-- A successor is made no later than its attempt lasts. -/
def CreatesInTime (household attempt x : String) (s : Server) : Event → Prop
  | .write id _ _ => id = x → s.libs x = .absent → attemptOver s.libs household attempt = false
  | _ => True

instance (library : Library) : Decidable (library = .absent) :=
  match library with
  | .absent => .isTrue rfl
  | .stored _ => .isFalse (by simp)
  | .moved _ => .isFalse (by simp)

instance (household attempt x : String) (s : Server) (e : Event) :
    Decidable (CreatesInTime household attempt x s e) := by
  unfold CreatesInTime
  cases e <;> infer_instance

variable {attempt household : String} {libs : Libraries}

theorem attemptOver_of_ended (h : Ended libs household attempt) : attemptOver libs household attempt = true := by
  unfold attemptOver
  rcases h with ⟨v, hv, hentry, hended⟩ | ⟨m, hm⟩
  · rw [hv]
    simp only [hentry, Bool.true_and, Option.all_eq_true, Bool.or_eq_true, decide_eq_true_eq]
    intro r hr
    by_cases ha : r.attempt = attempt
    · exact .inr (hended r hr ha)
    · exact .inl ha
  · rw [hm]

theorem LibSteps.ended {libs' : Libraries} (h : LibSteps libs libs') (he : Ended libs household attempt) :
    Ended libs' household attempt := by
  induction h with
  | refl => exact he
  | tail _ hstep ih => exact hstep.ended ih

/-- An attempt is over, and the successor is gone or still listed, ahead of every sweep of that list. -/
structure Settled (household attempt x : String) (s : Server) : Prop where
  ended : Ended s.libs household attempt
  listed : (s.libs x).Gone ∨ ∃ v owed, s.libs household = .stored v ∧ v.sweep = some owed ∧ x ∈ owed.successors ∧
    ∀ task ∈ s.sweeps, task.household = household → task.owed = owed → x ∈ task.successors

/-- What an event leaves of the list of a household that is stored: the list, another that a reset's end puts in
its place, or none once a sweep is through with it. -/
theorem Commit.list (hkeeps : KeepsOwed hex s e) (hv : s.libs id = .stored v)
    (hv' : (s.step hex e).libs id = .stored v') {owed : Owed} (howed : v.sweep = some owed)
    (hc : Commit s e id v v') :
    v'.sweep = some owed ∨ ∃ task ∈ s.sweeps, task.household = id ∧ task.owed = owed ∧ task.successors = [] := by
  cases hc.step with
  | opened _ _ _ _ _ _ _ _ _ hsweep | carried _ _ _ _ _ _ _ _ _ _ _ hsweep | cleared _ _ _ _ _ _ _ _ hsweep
  | written _ _ _ hsweep => exact .inl (hsweep.trans howed)
  | ended r r' hevent hold hphase _ hreset _ hended =>
    have hresets : s.Resets hex e id := by
      unfold Server.Resets Library.reset
      rw [hv, hv']
      intro (heq : v'.reset = v.reset)
      cases (hold.symm.trans heq.symm).trans hreset
      rw [hended] at hphase
      exact absurd hphase (by decide)
    have hnone : s.owes id = none := by
      rcases hevent with ⟨r, rfl, rfl⟩ | ⟨p, rfl, rfl, hpurpose, hproof⟩
      · exact hkeeps.2 hresets
      · exact hkeeps.2 hpurpose hproof hresets
    cases howed.symm.trans ((Server.owes_stored hv).symm.trans hnone)
  | swept task htask hhousehold hdone howed' =>
    exact .inr ⟨task, htask, hhousehold, Option.some.inj (howed'.symm.trans howed), hdone⟩

theorem deleteSuccessor_gone (libs : Libraries) (x : String) : (deleteSuccessor libs x x).Gone := by
  cases hl : libs x with
  | stored v =>
    simp only [deleteSuccessor, hl, Function.update_self]
    rfl
  | absent | moved m =>
    simp only [deleteSuccessor, hl]
    rfl

theorem step_settled (hok : ServerOK s) (hkeeps : KeepsOwed hex s e)
    (hcreates : CreatesInTime household attempt x s e)
    (h : Settled household attempt x s) : Settled household attempt x (s.step hex e) := by
  refine ⟨(step_libSteps hok e).ended h.ended, ?_⟩
  by_cases hgone : ((s.step hex e).libs x).Gone
  · exact .inl hgone
  right
  rcases h.listed with hgone' | ⟨v, owed, hv, howed, hx, htasks⟩
  · -- what is gone is made again by a write only, and the attempt is over
    refine absurd (step_gone hok hgone' fun habsent token change he => ?_) hgone
    subst he
    have hover := hcreates rfl habsent
    rw [attemptOver_of_ended h.ended] at hover
    cases hover
  · obtain ⟨v', hv'⟩ : ∃ v', (s.step hex e).libs household = .stored v' := by
      rcases step_stored hok.libs hv e with hstored | ⟨htarget, m, hm⟩
      · exact hstored
      · have hnone := hkeeps.1 household htarget (by rw [hm]; rfl)
        rw [Server.owes_stored hv, howed] at hnone
        cases hnone
    have hlist : v'.sweep = some owed ∨
        ∃ task ∈ s.sweeps, task.household = household ∧ task.owed = owed ∧ task.successors = [] := by
      rcases step_leaves hok.libs hv hv' with rfl | hc
      · exact .inl howed
      · exact hc.list hkeeps hv hv' howed
    rcases hlist with howed' | ⟨task, htask, hh, ho, hdone⟩
    · refine ⟨v', owed, hv', howed', hx, fun task htask hh ho => ?_⟩
      rcases step_tasks htask with ⟨old, hold, hh', ho', hleft⟩ | ⟨w, -, -, hfull, -⟩
      · have hin := htasks old hold (hh'.trans hh) (ho'.trans ho)
        rcases hleft with hsame | ⟨y, hpop, hlibs⟩
        · exact hsame ▸ hin
        · -- the sweep that takes it off its list deletes it
          rw [hpop] at hin
          rcases List.mem_cons.mp hin with rfl | hin
          · refine absurd ?_ hgone
            rw [hlibs]
            exact deleteSuccessor_gone s.libs x
          · exact hin
      · rw [hfull, ho]
        exact hx
    · -- a sweep that is through its list has deleted what is on it
      have hin := htasks task htask hh ho
      rw [hdone] at hin
      cases hin

/-- A household whose attempt lasts, and lists the successor when it ends. -/
def Lasting (household attempt x : String) (s : Server) : Prop :=
  ∃ v r, s.libs household = .stored v ∧ v.reset = some r ∧ r.role = .household ∧ r.phase.live = true ∧
    r.attempt = attempt ∧ x ∈ r.owed.successors

/-- The attempt lasts, or is over with the successor settled, or the household is retired. -/
def Tracked (household attempt x : String) (s : Server) : Prop :=
  Lasting household attempt x s ∨ Settled household attempt x s ∨ ∃ m, s.libs household = .moved m

/-- An attempt that lasts is in no list that is being swept. -/
theorem Lasting.not_ended (h : Lasting household attempt x s) : ¬ Ended s.libs household attempt := by
  obtain ⟨v, r, hv, hr, -, hlive, hattempt, -⟩ := h
  rintro (⟨w, hw, -, hended⟩ | ⟨m, hm⟩)
  · rw [hv] at hw
    cases hw
    rw [hended r hr hattempt] at hlive
    cases hlive
  · rw [hv] at hm
    cases hm

theorem step_tracked (hok : ServerOK s) (hkeeps : KeepsOwed hex s e)
    (hcreates : CreatesInTime household attempt x s e)
    (h : Tracked household attempt x s) : Tracked household attempt x (s.step hex e) := by
  rcases h with hlasting | hsettled | ⟨m, hm⟩
  · have hnot := hlasting.not_ended
    obtain ⟨v, r, hv, hr, hrole, hlive, rfl, hx⟩ := hlasting
    rcases step_stored hok.libs hv e with ⟨v', hv'⟩ | ⟨-, m, hm⟩
    · rcases step_leaves hok.libs hv hv' with rfl | hc
      · exact .inl ⟨v', r, hv', hr, hrole, hlive, rfl, hx⟩
      rcases hc.lived hr hrole hlive with
        ⟨r', hr', hrole', hlive', hattempt, howed, -⟩ | ⟨-, r', hr', hattempt, hphase, hsweep⟩
      · exact .inl ⟨v', r', hv', hr', hrole', hlive', hattempt, howed ▸ hx⟩
      · -- the attempt ends: its list is new, so no sweep runs on it yet
        have hover : Ended (s.step hex e).libs household r.attempt := by
          refine .inl ⟨v', hv', ?_, fun r'' hr'' _ => ?_⟩
          · rw [← hattempt]
            exact ((step_serverOK hok e).libs.vaults _ _ hv').entry r' hr'
          · rw [hr'] at hr''
            cases hr''
            exact hphase
        refine .inr (.inl ⟨hover, .inr ⟨v', r.owed, hv', hsweep, hx, fun task htask hh ho => ?_⟩⟩)
        rcases step_tasks htask with ⟨old, hold, hh', ho', -⟩ | ⟨w, -, -, hfull, -⟩
        · have hended := (hok.sweeps old hold).1
          rw [hh', ho', hh, ho] at hended
          exact absurd hended hnot
        · rw [hfull, ho]
          exact hx
    · exact .inr (.inr ⟨m, hm⟩)
  · exact .inr (.inl (step_settled hok hkeeps hcreates hsettled))
  · exact .inr (.inr ⟨m, (step_libSteps hok e).moved hm⟩)

variable {p : Post} {answer : Answer}

theorem lookupReply_not_granted (v : Vault) (household : Option Library) (attempt : String) (answer : Answer) :
    lookupReply v household attempt ≠ .granted answer := by
  unfold lookupReply
  split <;> exact Reply.noConfusion

theorem storeFailure_not_granted (error : StoreError) (answer : Answer) :
    storeFailure error ≠ .granted answer := by
  unfold storeFailure
  split
  · exact Reply.noConfusion
  · split_ifs <;> exact Reply.noConfusion
  · exact Reply.noConfusion

/-- **A granted acquire opened its lock.** -/
theorem post_opened (hpurpose : p.body.purpose = PURPOSE)
    (hrole : p.body.role = .household) (hgranted : (post hex libs p).2 = .granted answer) :
    ∃ v v', libs p.id = .stored v ∧ openHousehold libs v p = .ok v' ∧
      (post hex libs p).1 = Function.update libs p.id (.stored v') := by
  rcases post_cases hex libs p with ⟨_, _, hpost⟩ | ⟨v, household, -, hpost⟩ | ⟨v, lib, decision, h⟩
  · rw [hpost] at hgranted
    cases hgranted
  · rw [hpost] at hgranted
    exact absurd hgranted (lookupReply_not_granted v household _ answer)
  have hkind : (postReq hex p (p.body.purpose = PURPOSE)).kind = .acquire := by simp [postReq, hpurpose]
  have hstep := h.decided
  rw [h.result] at hgranted ⊢
  cases decision with
  | opens pre =>
    simp only [performPost, hrole] at hgranted ⊢
    cases hopen : openHousehold libs v p with
    | ok v' => exact ⟨v, v', (targetStore_ok h.target).1, hopen, rfl⟩
    | error error =>
      rw [hopen] at hgranted
      exact absurd hgranted (storeFailure_not_granted error answer)
  | takeover phase => exact absurd hkind (acquireOrTakeover_kind hstep (.inr ⟨phase, rfl⟩))
  | rollback => exact absurd hkind (acquireOrTakeover_kind hstep (.inl rfl))
  | lookup => exact absurd hgranted (lookupReply_not_granted v _ _ answer)
  | _ => cases hgranted

/-- What a granted acquire leaves: its attempt lasts, and lists every successor that was not there. -/
theorem post_lasting (hpurpose : p.body.purpose = PURPOSE)
    (hrole : p.body.role = .household) (hgranted : (post hex s.libs p).2 = .granted answer)
    (hx : x ∈ p.body.declared)
    (hnew : s.libs x = .absent) : Lasting p.id p.body.attempt x (s.step hex (.post p)) := by
  obtain ⟨v, v', -, hopen, hlibs⟩ := post_opened hpurpose hrole hgranted
  have hv' : (s.step hex (.post p)).libs p.id = .stored v' := by
    show (post hex s.libs p).1 p.id = .stored v'
    rw [hlibs, Function.update_self]
  obtain ⟨-, rfl⟩ := Vault.commit_ok hopen
  refine ⟨_, _, hv', rfl, hrole, rfl, rfl, Record.mem_owed.mpr ⟨hx, ?_⟩⟩
  simp [newRecord, declaredThere, hnew]

/-- **No owed successor is forgotten.** An acquire is granted and declares a library that is not there. In every
run from there on in which no household that owes a list ends another reset or is retired, and the library is made
no later than the attempt lasts: once the attempt is over without the household's retirement, the library is not
there, is retired, or is named in the household's list. -/
theorem owed_successor_kept (hex : Hash → String) (es es' fs : List Event) (p : Post)
    (answer : Answer) (x : String) (hpurpose : p.body.purpose = PURPOSE) (hrole : p.body.role = .household)
    (hgranted : (post hex (Run.exec (Server.step hex) Server.empty es).libs p).2 = .granted answer)
    (hx : x ∈ p.body.declared) (hnew : (Run.exec (Server.step hex) Server.empty es).libs x = .absent)
    (hmeets : Run.Meets (Server.step hex) (fun s e => KeepsOwed hex s e ∧ CreatesInTime p.id p.body.attempt x s e)
      (Run.exec (Server.step hex) Server.empty (es ++ [.post p])) (es' ++ fs))
    (v : Vault) (hv : (Run.exec (Server.step hex) Server.empty (es ++ [.post p] ++ es')).libs p.id = .stored v)
    (hover : ∀ r, v.reset = some r → r.attempt = p.body.attempt → r.phase = .aborted) :
    ((Run.exec (Server.step hex) Server.empty (es ++ [.post p] ++ es' ++ fs)).libs x).Gone ∨
      ∃ owed, (Run.exec (Server.step hex) Server.empty (es ++ [.post p] ++ es' ++ fs)).owes p.id = some owed ∧
        x ∈ owed.successors := by
  obtain ⟨hes', hfs⟩ := Run.meets_append.mp hmeets
  rw [← Run.exec_append] at hfs
  have hstart : Lasting p.id p.body.attempt x (Run.exec (Server.step hex) Server.empty (es ++ [.post p])) := by
    rw [Run.exec_append]
    exact post_lasting hpurpose hrole hgranted hx hnew
  -- up to the state in which the attempt is over
  have htracked := Run.exec_inv (I := fun s => ServerOK s ∧ Tracked p.id p.body.attempt x s) ?_
    ⟨run_serverOK hex _, .inl hstart⟩ hes'
  swap
  · rintro s e ⟨hok, h⟩ ⟨hkeeps, hcreates⟩
    exact ⟨step_serverOK hok e, step_tracked hok hkeeps hcreates h⟩
  rw [← Run.exec_append] at htracked
  obtain ⟨hok, hlasting | hsettled | ⟨m, hm⟩⟩ := htracked
  · obtain ⟨w, r, hw, hr, -, hlive, hattempt, -⟩ := hlasting
    rw [hv] at hw
    cases hw
    rw [hover r hr hattempt] at hlive
    cases hlive
  · -- and on from there
    have hend := Run.exec_inv (I := fun s => ServerOK s ∧ Settled p.id p.body.attempt x s) ?_ ⟨hok, hsettled⟩ hfs
    swap
    · rintro s e ⟨hok, h⟩ ⟨hkeeps, hcreates⟩
      exact ⟨step_serverOK hok e, step_settled hok hkeeps hcreates h⟩
    rw [← Run.exec_append] at hend
    rcases hend.2.listed with hgone | ⟨w, owed, hw, howed, hin, -⟩
    · exact .inl hgone
    · exact .inr ⟨owed, (Server.owes_stored hw).trans howed, hin⟩
  · rw [hv] at hm
    cases hm

/-! A reset is aborted, the sweep of what it made fails, and a second reset ends before the next one. -/

abbrev sampleRun (es : List Event) : Server := Run.exec (Server.step showHash) Server.empty es

def samplePost (attempt successor member : String) : Post :=
  ⟨householdId, 1, some 5, none,
    ⟨attempt, PURPOSE, .household, ⟨0, sampleDigest⟩, some successor, some [⟨profileId, member⟩], none⟩, "lock"⟩

def firstPost : Post := samplePost attemptA newHouseholdId newProfileId

def sampleAbort (attempt successor : String) : Event := .abort ⟨householdId, 1, some 5, attempt, successor⟩

def sampleHome : List Event := [firstWrite householdId 5, firstWrite profileId 4]

/-- The first reset makes its successor and is aborted. -/
def sampleEnd : List Event := [firstWrite newHouseholdId 5, sampleAbort attemptA newHouseholdId]

/-- The sweep fails. -/
def sampleFail : List Event := [.sweepStart householdId, .sweepStep 0 true]

/-- A second reset is aborted. -/
def sampleAgain : List Event :=
  [.post (samplePost attemptB "ffffffffffffffff" newProfileId), sampleAbort attemptB "ffffffffffffffff"]

theorem second_end_forgets_successor :
    (post showHash (sampleRun sampleHome).libs firstPost).2 = .granted (.opened attemptA false) ∧
      (sampleRun sampleHome).libs newHouseholdId = .absent ∧
      ((sampleRun (sampleHome ++ [.post firstPost] ++ sampleEnd)).owes householdId).map Owed.successors =
        some [newHouseholdId, newProfileId] ∧
      ((sampleRun (sampleHome ++ [.post firstPost] ++ sampleEnd ++ sampleFail ++ sampleAgain)).owes
        householdId).map Owed.successors = some ["ffffffffffffffff", newProfileId] ∧
      ((sampleRun (sampleHome ++ [.post firstPost] ++ sampleEnd ++ sampleFail ++ sampleAgain)).libs
        newHouseholdId).vault.isSome := by
  decide +kernel

theorem owed_successor_kept_sample :
    ((sampleRun (sampleHome ++ [.post firstPost] ++ sampleEnd ++ sampleFail)).libs newHouseholdId).Gone ∨
      ∃ owed, (sampleRun (sampleHome ++ [.post firstPost] ++ sampleEnd ++ sampleFail)).owes
        householdId = some owed ∧ newHouseholdId ∈ owed.successors := by
  have hover : ((sampleRun (sampleHome ++ [.post firstPost] ++ sampleEnd)).libs householdId).vault.any
      (fun v => v.reset.all fun r => r.phase = .aborted) = true := by
    decide +kernel
  obtain ⟨v, hv, hover⟩ := (Option.any_eq_true ..).mp hover
  refine owed_successor_kept showHash sampleHome sampleEnd sampleFail firstPost (.opened attemptA false)
    newHouseholdId
    rfl rfl (by decide +kernel) (by decide) (by decide +kernel) (by decide +kernel) v
    (Library.vault_eq_some hv) ?_
  intro r hr _
  simpa [hr] using hover

/-! ## What is over -/

/-- **What is over stays over.** In every run, a library that is retired stays so under its marker, and an attempt
that a library's record says is aborted is live on it in no later state, whatever resets and recoveries come
after. -/
theorem over_stays_over (hex : Hash → String) (es fs : List Event) (id : String) :
    let before := (Run.exec (Server.step hex) Server.empty es).libs
    let after := (Run.exec (Server.step hex) Server.empty (es ++ fs)).libs
    (∀ m, before id = .moved m → after id = .moved m) ∧
    (∀ v v' r r', before id = .stored v → v.reset = some r → r.phase = .aborted → after id = .stored v' →
      v'.reset = some r' → r'.attempt = r.attempt → r'.phase = .aborted) := by
  have hok := run_serverOK hex es
  simp only [Run.exec_append]
  refine ⟨fun m => run_moved hok fs, fun v v' r r' hv hr hended hv' hr' hattempt => ?_⟩
  have hover : Ended (Run.exec (Server.step hex) Server.empty es).libs id r.attempt := by
    refine .inl ⟨v, hv, (hok.libs.vaults id v hv).entry r hr, fun found hfound _ => ?_⟩
    rw [← Option.some.inj (hr.symm.trans hfound)]
    exact hended
  have hstep : ∀ (s : Server) e, ServerOK s ∧ Ended s.libs id r.attempt →
      ServerOK (s.step hex e) ∧ Ended (s.step hex e).libs id r.attempt := fun s e ⟨hok, hover⟩ =>
    ⟨step_serverOK hok e, (step_libSteps hok e).ended hover⟩
  obtain ⟨-, ⟨found, hfound, -, hall⟩ | ⟨m, hm⟩⟩ := Run.exec_inv_all hstep fs ⟨hok, hover⟩
  · cases hfound.symm.trans hv'
    exact hall r' hr' hattempt
  · cases hm.symm.trans hv'

/-! ## What is swept is not declared -/

/-- No acquire that opens a household's reset declares what the household still owes or a sweep of it still has to
delete. -/
def DeclaresFresh (hex : Hash → String) (s : Server) : Event → Prop
  | .post p => p.body.purpose = PURPOSE → p.body.role = .household → s.Resets hex (.post p) p.id →
    ∀ x ∈ p.body.declared, (∀ owed ∈ s.owes p.id, x ∉ owed.successors) ∧
        ∀ task ∈ s.sweeps, task.household = p.id → x ∉ task.successors
  | _ => True

instance (s : Server) (e : Event) : Decidable (DeclaresFresh hex s e) := by
  unfold DeclaresFresh
  cases e <;> infer_instance

/-- A library that is in no list of a household and ahead of none of its sweeps. -/
structure Unlisted (s : Server) (household x : String) : Prop where
  owed : ∀ owed ∈ s.owes household, x ∉ owed.successors
  sweeps : ∀ task ∈ s.sweeps, task.household = household → x ∉ task.successors

/-- What a household's live lock declares is unlisted. -/
def Spared (s : Server) : Prop :=
  ∀ household v r x, s.libs household = .stored v → v.reset = some r → r.role = .household → r.phase.live = true →
    x ∈ r.declared → Unlisted s household x

theorem step_unlisted (hv : s.libs household = .stored v)
    (hv' : (s.step hex e).libs household = .stored v') (hsweep : v'.sweep = v.sweep ∨ v'.sweep = none)
    (h : Unlisted s household x) : Unlisted (s.step hex e) household x := by
  have howed : ∀ owed, v.sweep = some owed → x ∉ owed.successors := by
    intro owed howed
    exact h.owed owed ((Server.owes_stored hv).trans howed)
  constructor
  · intro owed hmem
    have hnew : v'.sweep = some owed := (Server.owes_stored hv').symm.trans hmem
    rcases hsweep with hsame | hnone
    · exact howed owed (hsame ▸ hnew)
    · rw [hnone] at hnew
      cases hnew
  · intro task htask hh
    rcases step_tasks htask with ⟨old, hold, hh', -, hleft⟩ | ⟨w, hw, howes, hfull, -⟩
    · have hnot := h.sweeps old hold (hh'.trans hh)
      rcases hleft with hsame | ⟨y, hpop, -⟩
      · exact hsame ▸ hnot
      · intro hin
        exact hnot (hpop ▸ List.mem_cons_of_mem y hin)
    · rw [hh, hv] at hw
      cases hw
      rw [hfull]
      exact howed task.owed howes

theorem step_spared (hok : ServerOK s) (hfresh : DeclaresFresh hex s e) (h : Spared s) :
    Spared (s.step hex e) := by
  intro household v' r' x hv' hr' hrole hlive hx
  cases hl : s.libs household with
  | absent =>
    rcases step_absent hok.libs hl e with habsent | ⟨token, change, -, hnew⟩
    · cases habsent.symm.trans hv'
    · cases hnew.symm.trans hv'
      cases hr'
  | moved m =>
    rw [(step_libSteps hok e).moved hl] at hv'
    cases hv'
  | stored v =>
    rcases step_leaves hok.libs hl hv' with rfl | hc
    · exact step_unlisted hl hv' (.inl rfl) (h household v' r' x hl hr' hrole hlive hx)
    obtain ⟨hsweep, hfrom⟩ := hc.live_from hr' hrole hlive
    refine step_unlisted hl hv' hsweep ?_
    rcases hfrom with ⟨r, hr, hrole', hlive', hdeclared⟩ | ⟨hnew, p, rfl, rfl, hrole', hpurpose, hdeclared⟩
    · exact h household v r x hl hr hrole' hlive' (hdeclared ▸ hx)
    · -- the record is not the one before, whose attempt has an entry
      have hopens : s.Resets hex (.post p) p.id := by
        unfold Server.Resets Library.reset
        rw [hl, hv']
        intro (heq : v'.reset = v.reset)
        have hentry := (hok.libs.vaults _ _ hl).entry r' (heq.symm.trans hr')
        rw [hnew] at hentry
        cases hentry
      obtain ⟨howed, hsweeps⟩ := hfresh hpurpose hrole' hopens x (hdeclared ▸ hx)
      exact ⟨howed, hsweeps⟩

/-- **A sweep spares what a live reset relies on.** In every run in which no acquire declares what its household
still owes or a sweep of it still has to delete: the library a sweep of a household deletes next is not declared
by the household's live lock. -/
theorem sweep_spares_live_reset (hex : Hash → String) (es : List Event)
    (hmeets : Run.Meets (Server.step hex) (DeclaresFresh hex) Server.empty es) (i : ℕ)
    (task : SweepTask) (x : String)
    (rest : List String) (htask : (Run.exec (Server.step hex) Server.empty es).sweeps[i]? = some task)
    (hnext : task.successors = x :: rest) (v : Vault) (r : Record)
    (hv : (Run.exec (Server.step hex) Server.empty es).libs task.household = .stored v) (hr : v.reset = some r)
    (hrole : r.role = .household) (hlive : r.phase.live = true) : x ∉ r.declared := by
  have hspared : Spared (Run.exec (Server.step hex) Server.empty es) := by
    refine (Run.exec_inv (I := fun s => ServerOK s ∧ Spared s) ?_ ⟨empty_serverOK, ?_⟩ hmeets).2
    · rintro s e ⟨hok, h⟩ hfresh
      exact ⟨step_serverOK hok e, step_spared hok hfresh h⟩
    · intro household v r x hv
      cases hv
  intro hx
  have hunlisted := hspared task.household v r x hv hr hrole hlive hx
  refine hunlisted.sweeps task (List.mem_of_getElem? htask) rfl ?_
  rw [hnext]
  exact List.mem_cons_self

/-- A sweep has read its list when a second reset declares one of the libraries on it again, and makes it. -/
def sampleReuse : List Event :=
  sampleHome ++ [.post firstPost, sampleAbort attemptA newHouseholdId,
    .sweepStart householdId, .post (samplePost attemptB newHouseholdId newProfileId), firstWrite newHouseholdId 5]

theorem sweep_deletes_live_successor :
    ((sampleRun sampleReuse).sweeps[0]?).map SweepTask.successors =
        some [newHouseholdId, newProfileId] ∧
      ((sampleRun sampleReuse).libs newHouseholdId).vault.isSome ∧
      ((sampleRun sampleReuse).libs householdId).vault.any (fun v => v.reset.any fun r =>
        r.attempt = attemptB ∧ r.role = .household ∧ r.phase = .opened ∧ newHouseholdId ∈ r.declared) = true ∧
      (((sampleRun sampleReuse).step showHash (.sweepStep 0 false)).libs
        newHouseholdId).marker = some (.bare "") := by
  decide +kernel

/-- A second reset with successors of its own. -/
def sampleRenew : List Event :=
  sampleHome ++ [.post firstPost, sampleAbort attemptA newHouseholdId,
    .sweepStart householdId, .post (samplePost attemptB "ffffffffffffffff" "0000000000000000")]

theorem sweep_spares_live_reset_sample :
    ∃ v r, (sampleRun sampleRenew).libs householdId = .stored v ∧
      v.reset = some r ∧ r.attempt = attemptB ∧ newHouseholdId ∉ r.declared := by
  have hlive : ((sampleRun sampleRenew).libs householdId).vault.any (fun v =>
      v.reset.any fun r => r.attempt = attemptB ∧ r.role = .household ∧ r.phase.live = true) = true := by
    decide +kernel
  obtain ⟨v, hv, hlive⟩ := (Option.any_eq_true ..).mp hlive
  obtain ⟨r, hr, hlive⟩ := (Option.any_eq_true ..).mp hlive
  obtain ⟨hattempt, hrole, hlive⟩ := of_decide_eq_true hlive
  have hv := Library.vault_eq_some hv
  exact ⟨v, r, hv, hr, hattempt, sweep_spares_live_reset showHash sampleRenew (by decide +kernel) 0
    ⟨householdId, ⟨attemptA, [newHouseholdId, newProfileId], [profileId]⟩,
      [newHouseholdId, newProfileId], [profileId]⟩
    newHouseholdId [newProfileId] (by decide +kernel) rfl v r hv hr hrole hlive⟩

end DenEdge.Reset
