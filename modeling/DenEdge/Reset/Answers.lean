import DenEdge.Reset.Sweeps

/-!
# A retirement is answered as the model decides it

The handler of a retirement asks the model where the library is stored, and answers from the marker and from the
household's record where it is retired already. `retireWorld` is the world of either case.

* `retire_stored`: on a stored library the answer is the model's, and a decision to retire is carried out, unless
  the library's generation is not the one the request was sent under.
* `retire_moved`: on a retired library whose household is there, the answer is the model's, but that the attempt
  that retired it may repeat the request whoever owns the household since.
-/

namespace DenEdge.Reset

variable {hex : Hash → String} {libs : Libraries} {r : RetireRequest}

/-- The libraries a retirement is decided on. -/
def retireWorld (hex : Hash → String) (libs : Libraries) (id : String) : World :=
  match libs id with
  | .stored v =>
    match v.reset with
    | some record => forgetOthers record (buildWorld hex libs id false (retirePeers id record) noWorld)
    | none => buildWorld hex libs id false [(id, none)] noWorld
  | .moved (.exclusive _ t) =>
    buildWorld hex libs id false ((id, none) :: t.household.toList.map fun household =>
      (household, some .household)) noWorld
  | _ => buildWorld hex libs id false [(id, none)] noWorld

/-- What the model decides of a retirement. -/
def retireModel (hex : Hash → String) (libs : Libraries) (r : RetireRequest) : Except Invalid Decision :=
  step (retireWorld hex libs r.id) (attemptReq .retire r.id r.attempt (some r.successor))

/-- The answer to a decision; `current` says whether the request was sent under the library's generation. -/
def retireAnswer (current : Bool) : Except Invalid Decision → Reply
  | .error invalid => invalidReply invalid
  | .ok (.refused status error) => .refused status error
  | .ok (.retired _) => if current then .deleted else .refused 409 "generation_changed"
  | .ok .lookup => .deleted
  | .ok _ => conflict

/-! ## A stored library -/

variable {v : Vault} {id : String}

/-- The retirement door of a household that has committed opens. -/
theorem openDoor_opens (hok : VaultOK v) {record : Record} (hreset : v.reset = some record)
    (hphase : record.phase = .committed) : ∃ v', openDoor v = .ok v' := by
  have hkey : v.key = some record.owner := hok.key_live hreset (by rw [hphase]; rfl)
  unfold openDoor
  rw [hreset]
  simp only [hphase]
  simp [Vault.commit, Edit.new, LockExpect.admits, hkey, hreset]

/-- **A retirement the model allows is carried out.** -/
theorem performRetire_deletes (hok : LibsOK libs) {record : Record} {door : Bool}
    (hv : libs r.id = .stored v) (hreset : v.reset = some record) (hcrash : r.crash = false)
    (hvalid : validId32 r.attempt = true)
    (hstep : step (forgetOthers record (buildWorld hex libs r.id false (retirePeers r.id record) noWorld))
      (attemptReq .retire r.id r.attempt (some r.successor)) = .ok (.retired door)) :
    (performRetire libs r v record door).2 =
      retireAnswer (r.generation = v.generation) (.ok (.retired door)) := by
  unfold performRetire retireAnswer
  by_cases hgeneration : r.generation = v.generation
  · simp only [hgeneration, ne_eq, not_true_eq_false, if_false, decide_true, if_true]
    cases door with
    | false => rfl
    | true =>
      -- the door is a member's, and its household's record is committed
      obtain ⟨-, hhouse, hmember⟩ := retire_decided hok hv hreset hvalid hstep
      have hprofile : record.role = .profile := by
        cases hrole : record.role with
        | profile => rfl
        | household => cases hhouse hrole
      obtain ⟨household, house, held, hhousehold, hstored, hheld, -, -, -, hphase, -⟩ := hmember hprofile
      obtain ⟨opened, hopened⟩ := openDoor_opens (hok.vaults _ _ hstored) hheld (hphase rfl)
      simp [hhousehold, hstored, Library.vault, hopened, hcrash]
  · simp only [hgeneration, ne_eq, not_false_eq_true, if_true, decide_false, Bool.false_eq_true, if_false]

theorem forgetOthers_isSome (record : Record) (world : World) (id : String) :
    (forgetOthers record world id).isSome = (world id).isSome := by
  unfold forgetOthers
  split_ifs with hrole
  · generalize record.members = members
    induction members generalizing world with
    | nil => rfl
    | cons member _ ih =>
      rw [List.foldl_cons, ih]
      by_cases hid : id = member.libraryId
      · subst hid
        simp [Function.update_self]
      · rw [Function.update_of_ne hid]
  · rfl

theorem retireWorld_isSome (hex : Hash → String) (hpresent : libs id ≠ .absent) :
    ∃ lib, retireWorld hex libs id id = some lib := by
  rw [← Option.isSome_iff_exists]
  have hpeers : ∀ peers : List (String × Option LibRole), (id, none) ∈ peers →
      (buildWorld hex libs id false peers noWorld id).isSome := by
    intro peers hmem
    exact buildWorld_isSome hpresent (.inl (List.mem_map_of_mem (f := Prod.fst) hmem))
  cases hl : libs id with
  | absent => exact absurd hl hpresent
  | stored v =>
    cases hreset : v.reset with
    | none =>
      simp only [retireWorld, hl, hreset]
      exact hpeers _ (by simp)
    | some =>
      simp only [retireWorld, hl, hreset, forgetOthers_isSome]
      exact hpeers _ (by simp [retirePeers])
  | moved m =>
    cases m with
    | bare | exclusive =>
      simp only [retireWorld, hl]
      exact hpeers _ (by simp)

/-- An attempt that is no id is refused alike. -/
theorem retire_invalid (hpresent : libs r.id ≠ .absent) (hvalid : ¬ validId32 r.attempt = true) (current : Bool) :
    (retireRequest hex libs r).2 = retireAnswer current (retireModel hex libs r) := by
  obtain ⟨lib, hlib⟩ := retireWorld_isSome hex hpresent
  have hmodel : retireModel hex libs r = .error .badRequest := by
    have hworld : retireWorld hex libs r.id (attemptReq .retire r.id r.attempt (some r.successor)).library =
        some lib := hlib
    unfold retireModel step
    rw [hworld]
    simp [attemptReq, hvalid]
  rw [hmodel]
  unfold retireRequest
  rw [if_pos hvalid]
  rfl

/-- **On a stored library the answer is the model's.** -/
theorem retire_stored (hok : LibsOK libs) (hv : libs r.id = .stored v) (htoken : v.token = r.token)
    (hwire : ¬ (3 ≤ v.wireMin ∧ r.wire.getD 0 < v.wireMin)) (hcrash : r.crash = false) :
    (retireRequest hex libs r).2 = retireAnswer (r.generation = v.generation) (retireModel hex libs r) := by
  by_cases hvalid : validId32 r.attempt = true
  · unfold retireRequest
    rw [if_neg (not_not.mpr hvalid), hv]
    simp only [if_neg hwire, htoken, ne_eq, not_true_eq_false, if_false]
    cases hreset : v.reset with
    | none =>
      -- no record, so no key and no lock
      have hkey : v.key = none := by
        rw [(hok.vaults _ _ hv).key, hreset]
        rfl
      have hnone : v.lock = none := by
        simp [Vault.lock, modelLock, hkey, hreset]
      obtain ⟨lib, hlib, hlock, hretired⟩ := world_target hex r.id false [(r.id, none)] hv (by simp)
      have hmodel : retireModel hex libs r = .ok (.refused 409 "lock_not_held") := by
        simp only [retireModel, retireWorld, hv, hreset]
        rw [(step_attempt hlib hvalid).2.2]
        simp [retire, hretired, hlock, hnone, attemptReq]
      rw [hmodel, hkey]
      rfl
    | some record =>
      have hmodel : retireModel hex libs r = step (forgetOthers record
          (buildWorld hex libs r.id false (retirePeers r.id record) noWorld))
          (attemptReq .retire r.id r.attempt (some r.successor)) := by
        simp only [retireModel, retireWorld, hv, hreset]
      simp only
      rw [← hmodel]
      cases hdecision : retireModel hex libs r with
      | error => rfl
      | ok decision =>
        cases decision with
        | retired => exact performRetire_deletes hok hv hreset hcrash hvalid (hmodel.symm.trans hdecision)
        | _ => rfl
  · exact retire_invalid (by rw [hv]; simp) hvalid _

/-! ## A retired library -/

variable {successor : String}

theorem retire_bare (hm : libs r.id = .moved (.bare successor)) (current : Bool) :
    (retireRequest hex libs r).2 = retireAnswer current (retireModel hex libs r) := by
  by_cases hvalid : validId32 r.attempt = true
  · have hpresent : libs r.id ≠ .absent := by
      rw [hm]
      simp
    obtain ⟨lib, hlib⟩ := retireWorld_isSome hex hpresent
    have hmodel : retireModel hex libs r = .ok GONE := by
      unfold retireModel
      rw [(step_attempt hlib hvalid).2.2]
      have hworld : retireWorld hex libs r.id = buildWorld hex libs r.id false [(r.id, none)] noWorld := by
        simp only [retireWorld, hm]
      obtain ⟨hlock, hretired⟩ := (buildWorld_noWorld (hworld ▸ hlib)).moved hm
      simp [retire, hretired, retireAgain, hlock, markerLock]
    rw [hmodel]
    unfold retireRequest
    rw [if_neg (not_not.mpr hvalid), hm]
    rfl
  · exact retire_invalid (by rw [hm]; simp) hvalid _

/-- Who the model lets repeat a retirement: the acquiring attempt, and the owner of the lock now. -/
theorem retireAgain_iff {world : World} {lib : Lib} {lock : Lock} {attempt : String}
    (hlock : lib.lock = some lock)
    (hphase : lock.phase = .retired) (owner : Option String) (howner : owner = match lock.role with
      | .household => some lock.owner
      | .profile => ((householdLock world lock).filter (·.attempt = lock.attempt)).map Lock.owner) :
    retireAgain world (attemptReq .retire id attempt (some successor)) lib =
      if (attempt = lock.attempt ∨ some attempt = owner) ∧ successor = lock.successor then .lookup else GONE := by
  subst howner
  cases hrole : lock.role with
  | household => simp only [retireAgain, hlock, hrole, attemptReq, hphase, true_and, Option.some.injEq]
  | profile => simp only [retireAgain, hlock, hrole, attemptReq, hphase, true_and, Option.some.injEq]

/-- The owner of the lock a member was retired under is the one its household's record names. -/
theorem marker_owner (hok : LibsOK libs) (attempt : String) (world : World) {t : Tombstone}
    (hm : libs id = .moved (.exclusive successor t)) (hprofile : t.role = .profile)
    (hhouse : ∀ household m, t.household = some household → libs household ≠ .moved m)
    (hworld : ∀ household v, t.household = some household → libs household = .stored v →
      ∃ lib, world household = some lib ∧ lib.lock = v.lock) :
    (some attempt = ((householdLock world (tombstoneLock successor t)).filter
        (·.attempt = (tombstoneLock successor t).attempt)).map Lock.owner) ↔
      followsHousehold libs t attempt = true := by
  obtain ⟨household, hhousehold, hdecided⟩ := hok.markers id _ hm hprofile
  rcases hdecided with ⟨v, record, hv, hreset, hrole, hattempt, hphase⟩ | ⟨m, hmoved⟩
  · obtain ⟨lib, hlib, hlock⟩ := hworld household v hhousehold hv
    have hlive : v.lock = some (record.model false) := (hok.vaults _ _ hv).lock_live hreset (by rw [hphase]; rfl)
    have hseen : householdLock world (tombstoneLock successor t) = some (record.model false) := by
      simp [householdLock, tombstoneLock, hhousehold, hlib, hlock, hlive]
    rw [hseen]
    simp [followsHousehold, hprofile, hhousehold, hv, Library.vault, hreset, hattempt,
      tombstoneLock, Record.model, hrole, Option.filter, eq_comm]
  · exact absurd hmoved (hhouse household m hhousehold)

/-- **On a retired library whose household is there, the answer is the model's,** but that the attempt that
retired it may always repeat. -/
theorem retire_moved (hok : LibsOK libs) {t : Tombstone} (hm : libs r.id = .moved (.exclusive successor t))
    (hhouse : ∀ household m, t.household = some household → libs household ≠ .moved m) (current : Bool) :
    (retireRequest hex libs r).2 =
      if validId32 r.attempt ∧ successor = r.successor ∧ t.owner = r.attempt then .deleted
      else retireAnswer current (retireModel hex libs r) := by
  have hpresent : libs r.id ≠ .absent := by
    rw [hm]
    simp
  by_cases hvalid : validId32 r.attempt = true
  · obtain ⟨lib, hlib⟩ := retireWorld_isSome hex hpresent
    have hworld : retireWorld hex libs r.id = buildWorld hex libs r.id false
        ((r.id, none) :: t.household.toList.map fun household => (household, some .household)) noWorld := by
      simp only [retireWorld, hm]
    obtain ⟨hlock, hretired⟩ := (buildWorld_noWorld (hworld ▸ hlib)).moved hm
    -- what the model takes for the owner, the handler reads off the marker or the household
    have hrepeat : (r.attempt = t.acquired ∨ some r.attempt = (match t.role with
        | .household => some t.owner
        | .profile => ((householdLock (retireWorld hex libs r.id) (tombstoneLock successor t)).filter
          (·.attempt = t.acquired)).map Lock.owner)) ↔
        (t.acquired = r.attempt ∨ (t.role = .household ∧ t.owner = r.attempt) ∨
          followsHousehold libs t r.attempt = true) := by
      cases hrole : t.role with
      | household => simp [followsHousehold, hrole, eq_comm]
      | profile =>
        have howner := marker_owner hok r.attempt (retireWorld hex libs r.id) hm hrole hhouse ?_
        · simp only [eq_comm (a := r.attempt) (b := t.acquired), reduceCtorEq, false_and, false_or]
          exact or_congr_right howner
        · intro household v hhousehold hv
          rw [hworld]
          obtain ⟨lib', hlib', hlock', -⟩ := world_target hex r.id false
              ((r.id, none) :: t.household.toList.map fun household => (household, some .household)) hv
              (by simp [hhousehold])
          exact ⟨lib', hlib', hlock'⟩
    have hmodel : retireModel hex libs r =
        .ok (if (t.acquired = r.attempt ∨ (t.role = .household ∧ t.owner = r.attempt) ∨
        followsHousehold libs t r.attempt = true) ∧ r.successor = successor then .lookup else GONE) := by
      unfold retireModel
      rw [(step_attempt hlib hvalid).2.2]
      simp only [retire, hretired, if_true]
      rw [retireAgain_iff (hlock.trans rfl) rfl _ rfl]
      exact congrArg Except.ok (if_congr (and_congr_left fun _ => hrepeat) rfl rfl)
    rw [hmodel]
    unfold retireRequest
    rw [if_neg (not_not.mpr hvalid), hm]
    simp only [retireMoved, hvalid, true_and]
    by_cases hsuccessor : successor = r.successor
    · subst hsuccessor
      by_cases howner : t.owner = r.attempt
      · simp [howner]
      · simp only [howner, true_and, false_or, and_false, and_true, if_false]
        split_ifs <;> rfl
    · have hsuccessor' : ¬ r.successor = successor := fun h => hsuccessor h.symm
      simp only [hsuccessor, hsuccessor', false_and, and_false, if_false]
      rfl
  · rw [if_neg (fun h => hvalid h.1)]
    exact retire_invalid hpresent hvalid _

/-! ## The result -/

/-- **The answer to a retirement is the model's.** In every state that is reached: on a stored library, for its
token and its wire, the answer is the model's, and a decision to retire is carried out unless the request was sent
under another generation of the library; on a library that was retired outside any reset it is the model's; and on
one that a reset retired, whose household is there, it is the model's but for the attempt that retired it, which
may always repeat. -/
theorem retire_answers_as_model (hex : Hash → String) (es : List Event) (r : RetireRequest) (libs : Libraries)
    (hlibs : (Run.exec (Server.step hex) Server.empty es).libs = libs) (hcrash : r.crash = false) :
    (∀ v, libs r.id = .stored v → v.token = r.token → ¬ (3 ≤ v.wireMin ∧ r.wire.getD 0 < v.wireMin) →
      (retireRequest hex libs r).2 = retireAnswer (r.generation = v.generation) (retireModel hex libs r)) ∧
    (∀ successor, libs r.id = .moved (.bare successor) →
      (retireRequest hex libs r).2 = retireAnswer true (retireModel hex libs r)) ∧
    ∀ successor t, libs r.id = .moved (.exclusive successor t) →
      (∀ household m, t.household = some household → libs household ≠ .moved m) →
      (retireRequest hex libs r).2 =
        if validId32 r.attempt ∧ successor = r.successor ∧ t.owner = r.attempt then .deleted
        else retireAnswer true (retireModel hex libs r) := by
  subst hlibs
  have hok := (run_serverOK hex es).libs
  refine ⟨?_, ?_, ?_⟩
  · intro v hv htoken hwire
    exact retire_stored hok hv htoken hwire hcrash
  · intro successor hm
    exact retire_bare hm true
  · intro successor t hm hhouse
    exact retire_moved hok hm hhouse true

/-! A reset taken over twice, with the profile retired in between. -/

def recoveryA : String := "c000000000000000000000000000000c"
def recoveryB : String := "d000000000000000000000000000000d"

/-- A recovery that shows the successor's token. -/
def sampleRecovery (attempt : String) : Event :=
  .post ⟨householdId, 1, some 5, some (some 1),
    ⟨attempt, RECOVERY_PURPOSE, .household, ⟨0, sampleDigest⟩, none, none, none⟩, "lock"⟩

def recoveredRetire : RetireRequest := ⟨profileId, 1, some 4, recoveryA, newProfileId, "g", false⟩

def sampleRecovered : List Event :=
  sampleBefore ++ [sampleRecovery recoveryA, .retire recoveredRetire, sampleRecovery recoveryB]

/-- The recovery that retired the profile repeats after another took the household over. -/
theorem earlier_recovery_repeats :
    (retireRequest showHash (sampleRun sampleRecovered).libs recoveredRetire).2 = .deleted ∧
      retireModel showHash (sampleRun sampleRecovered).libs recoveredRetire = .ok GONE := by
  decide +kernel

theorem retire_answers_as_model_sample :
    ∃ v, (sampleRun sampleBefore).libs profileId = .stored v ∧
      (retireRequest showHash (sampleRun sampleBefore).libs sampleRetire).2 =
        retireAnswer (sampleRetire.generation = v.generation)
          (retireModel showHash (sampleRun sampleBefore).libs sampleRetire) := by
  have hstored : ((sampleRun sampleBefore).libs profileId).vault.any
      (fun v => v.token = 1 ∧ v.wireMin = 4) = true := by
    decide +kernel
  obtain ⟨v, hv, hmine⟩ := (Option.any_eq_true ..).mp hstored
  obtain ⟨htoken, hwire⟩ := of_decide_eq_true hmine
  have hv := Library.vault_eq_some hv
  obtain ⟨hanswer, -, -⟩ := retire_answers_as_model showHash sampleBefore sampleRetire _ rfl rfl
  exact ⟨v, hv, hanswer v hv htoken (by rw [hwire]; decide)⟩

end DenEdge.Reset
