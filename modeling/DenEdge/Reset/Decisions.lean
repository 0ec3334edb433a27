import DenEdge.Base.Except
import DenEdge.Reset.Model

/-!
# What each decision was made on

One inversion for each decision that has an effect: a lock is opened, taken over, rolled back, committed, aborted
or retired only under these conditions of the world it was decided in.
-/

namespace DenEdge.Reset

variable {world : World} {request : Req} {library : Lib}

/-! ## Acquire and takeover -/

/-- The well-formed part of an acquire or a takeover that its library's lock does not already answer. -/
structure Asked (request : Req) (library : Lib) (presenter : String) (role : Role)
    (expected : Source) : Prop where
  attempt : request.attempt = some presenter
  valid : validId32 presenter = true
  asRole : request.role = some role
  source : request.expectedSource = some expected
  sourceOK : validSource expected = true
  purpose : request.purpose = some (wantPurpose request.kind)
  declaration : checkDeclaration request role = .ok ()
  new : library.lock.bind (repeated request presenter role expected) = none

variable {decision : Decision}

/-- A decision with an effect comes from a request that is well formed and new. -/
theorem acquireOrTakeover_ok (h : acquireOrTakeover world request library = .ok decision)
    (hne : decision ≠ CONFLICT) (hlookup : decision ≠ .lookup) :
    ∃ presenter role expected, Asked request library presenter role expected ∧
      (request.kind = .acquire → acquireDecision world request library presenter role expected = .ok decision) ∧
      (request.kind ≠ .acquire → recoverDecision world request library role expected = .ok decision) := by
  unfold acquireOrTakeover at h
  split at h
  · rename_i presenter role expected hattempt hrole hsource
    rw [Option.filter_eq_some_iff] at hattempt hsource
    split at h
    · cases h
    rename_i hpurpose
    split at h
    · exact absurd (Except.ok.inj h).symm hne
    obtain ⟨_, hdeclaration, h⟩ := Except.bind_ok.mp h
    split at h
    · -- what the lock already answers is a lookup or a mismatch
      rename_i answer hanswer
      subst h
      obtain ⟨lock, -, hrepeated⟩ := Option.bind_eq_some_iff.mp hanswer
      unfold repeated at hrepeated
      split_ifs at hrepeated <;> cases hrepeated <;> exact absurd rfl hlookup
    · rename_i hnew
      refine ⟨presenter, role, expected,
        ⟨hattempt.1, hattempt.2, hrole, hsource.1, hsource.2, ?_, hdeclaration, hnew⟩, ?_, ?_⟩
      · simpa using hpurpose
      · intro hk
        rwa [if_pos hk] at h
      · intro hk
        rwa [if_neg hk] at h
  · cases h

variable {role : Role} {expected : Source}

/-- An acquire that is well formed, new and decided is decided so. -/
theorem acquireOrTakeover_acquire {presenter : String}
    (ha : Asked request library presenter role expected) (hk : request.kind = .acquire) :
    acquireOrTakeover world request library = acquireDecision world request library presenter role expected := by
  unfold acquireOrTakeover
  have hattempt : request.attempt.filter validId32 = some presenter := by simp [ha.attempt, ha.valid]
  have hsource : request.expectedSource.filter validSource = some expected := by simp [ha.source, ha.sourceOK]
  rw [hattempt, ha.asRole, hsource]
  simp only
  rw [if_neg (not_not.mpr ha.purpose), if_neg (fun hn => hn.1 hk), ha.declaration, ha.new]
  exact if_pos hk

/-- What a new lock was opened on. -/
structure Opens (world : World) (request : Req) (library : Lib) (presenter : String) (role : Role)
    (expected : Source) : Prop extends Asked request library presenter role expected where
  live : library.retired = false
  free : held world library.lock = false
  kind : library.role.is role = true
  declared : role = .profile → declaredBy world request presenter = true
  current : library.source = expected

theorem acquireDecision_opens_iff {presenter : String} (ha : Asked request library presenter role expected) :
    (∃ pre, acquireDecision world request library presenter role expected = .ok (.opens pre)) ↔
      Opens world request library presenter role expected := by
  constructor
  · rintro ⟨pre, h⟩
    unfold acquireDecision GONE CONFLICT at h
    split at h
    · cases h
    rename_i hretired
    split at h
    · cases h
    rename_i hheld
    split at h
    · cases h
    rename_i hrole
    split at h
    · cases h
    rename_i hdeclared
    split at h
    · cases h
    rename_i hsource
    refine ⟨ha, by simpa using hretired, by simpa using hheld, not_not.mp hrole, fun hp => ?_, not_not.mp hsource⟩
    by_contra hnot
    exact hdeclared ⟨hp, hnot⟩
  · intro h
    refine ⟨preexisting world request role, ?_⟩
    unfold acquireDecision
    rw [if_neg (by simp [h.live]), if_neg (by simp [h.free]), if_neg (by simp [h.kind]),
      if_neg (fun hp => hp.2 (h.declared hp.1)), if_neg (not_not.mpr h.current)]

/-- The lock a recovery takes over or rolls back: a household's, in force. -/
structure Recoverable (world : World) (request : Req) (library : Lib) (lock : Lock) : Prop where
  isLock : library.lock = some lock
  held : heldLock world lock = true
  purpose : lock.purpose = PURPOSE
  role : lock.role = .household
  live : library.retired = false
  proven : provenBy world lock request.successorCredential = true

/-- What a recovery was decided on. -/
def Resumes (world : World) (request : Req) (library : Lib) (decision : Decision) : Prop :=
  ∃ lock, Recoverable world request library lock ∧
    ((decision = .rollback ∧ request.successorCredential = none ∧ lock.phase = .committed) ∨
      (decision = .takeover lock.phase ∧
        (request.successorCredential = none → lock.phase ≠ .retiring ∧ lock.phase ≠ .committed)))

theorem recoverDecision_ok
    (h : recoverDecision world request library role expected = .ok decision) (hne : decision ≠ CONFLICT)
    (hgone : decision ≠ GONE) : Resumes world request library decision := by
  unfold recoverDecision at h
  split at h
  · exact absurd (Except.ok.inj h).symm hgone
  rename_i hretired
  split at h
  · exact absurd (Except.ok.inj h).symm hne
  rename_i lock hlock
  rw [Option.filter_eq_some_iff] at hlock
  split at h
  · exact absurd (Except.ok.inj h).symm hne
  rename_i hkind
  rw [not_or, not_not, not_not] at hkind
  split at h
  · cases h
  have h := Except.ok.inj h
  unfold takeoverDecision at h
  split at h
  · exact absurd h.symm hne
  split at h
  · exact absurd h.symm hne
  rename_i hproven
  split at h
  · exact absurd h.symm hne
  rename_i hretiring
  split at h
  · rename_i hcommitted
    refine ⟨lock, ⟨hlock.1, hlock.2, hkind.1, hkind.2, by simpa using hretired, not_not.mp hproven⟩, .inl ?_⟩
    exact ⟨h.symm, Option.isNone_iff_eq_none.mp hcommitted.1, hcommitted.2⟩
  · rename_i hcommitted
    refine ⟨lock, ⟨hlock.1, hlock.2, hkind.1, hkind.2, by simpa using hretired, not_not.mp hproven⟩,
      .inr ⟨h.symm, ?_⟩⟩
    intro hnone
    rw [hnone] at hretiring hcommitted
    exact ⟨fun hp => hretiring ⟨rfl, hp⟩, fun hp => hcommitted ⟨rfl, hp⟩⟩

/-- Only an acquire opens a lock. -/
theorem acquireOrTakeover_opens {pre : Option (List String)}
    (h : acquireOrTakeover world request library = .ok (.opens pre)) :
    request.kind = .acquire ∧ ∃ presenter role expected, Opens world request library presenter role expected := by
  obtain ⟨presenter, role, expected, hasked, hacquire, hrecover⟩ :=
    acquireOrTakeover_ok h (by simp [CONFLICT]) (by simp)
  by_cases hk : request.kind = .acquire
  · exact ⟨hk, presenter, role, expected, (acquireDecision_opens_iff hasked).mp ⟨pre, hacquire hk⟩⟩
  · obtain ⟨lock, -, hd⟩ := recoverDecision_ok (hrecover hk) (by simp [CONFLICT]) (by simp [GONE])
    rcases hd with ⟨hd, -⟩ | ⟨hd, -⟩ <;> cases hd

/-- Only a recovery takes a lock over or rolls it back. -/
theorem acquireOrTakeover_kind (h : acquireOrTakeover world request library = .ok decision)
    (hd : decision = .rollback ∨ ∃ phase, decision = .takeover phase) : request.kind ≠ .acquire := by
  intro hk
  have hne : decision ≠ CONFLICT ∧ decision ≠ .lookup := by
    rcases hd with rfl | ⟨phase, rfl⟩ <;> simp [CONFLICT]
  obtain ⟨presenter, role, expected, -, hacquire, -⟩ := acquireOrTakeover_ok h hne.1 hne.2
  have hacquire := hacquire hk
  unfold acquireDecision GONE CONFLICT at hacquire
  rcases hd with rfl | ⟨phase, rfl⟩ <;> split_ifs at hacquire <;> simp at hacquire

/-- What a recovery takes over or rolls back. -/
theorem acquireOrTakeover_recovers (h : acquireOrTakeover world request library = .ok decision)
    (hd : decision = .rollback ∨ ∃ phase, decision = .takeover phase) :
    Resumes world request library decision := by
  have hne : decision ≠ CONFLICT ∧ decision ≠ GONE ∧ decision ≠ .lookup := by
    rcases hd with rfl | ⟨phase, rfl⟩ <;> simp [CONFLICT, GONE]
  obtain ⟨presenter, role, expected, hasked, -, hrecover⟩ := acquireOrTakeover_ok h hne.1 hne.2.2
  exact recoverDecision_ok (hrecover (acquireOrTakeover_kind h hd)) hne.1 hne.2.1

/-! ## Commit, abort, retire -/

theorem commit_committed {lock : Option Lock} (h : commit world request lock = .ok .committed) :
    ∃ l, lock = some l ∧ l.phase = .opened := by
  unfold commit at h
  split at h
  · cases h
  rename_i l hl
  split at h
  · split at h <;> cases h
  split at h
  · cases h
  rename_i hphase
  exact ⟨l, (Option.filter_eq_some_iff.mp hl).1, not_not.mp hphase⟩

theorem abort_aborted {presenter : Option String} (h : abort world library presenter = .aborted) :
    ∃ l, library.lock = some l ∧ l.phase = .opened := by
  unfold abort at h
  split at h
  · cases h
  split at h
  · cases h
  rename_i l hl
  rw [Option.filter_eq_some_iff] at hl
  split at h
  · cases h
  split at h
  · cases h
  rename_i hopen
  rw [not_or, not_or, not_not, not_not, not_not] at hopen
  exact ⟨l, hl.1, hopen.2.2⟩

/-- What a retirement was decided on: a lock in force whose household is past its decision. -/
structure Retires (world : World) (request : Req) (lock house : Lock) (door : Bool) : Prop where
  held : heldLock world lock = true
  authority : match lock.role with
    | .household => house = lock
    | .profile =>
      householdLock world lock = some house ∧ house.attempt = lock.attempt ∧ some house.owner = request.attempt
  successor : request.successor = some lock.successor
  phase : house.phase = .committed ∨ house.phase = .retiring
  opensDoor : door = true ↔ lock.role = .profile ∧ house.phase = .committed
  members : lock.role = .household → ∀ member ∈ lock.members, ∃ lib l, world member.libraryId = some lib ∧
    lib.lock = some l ∧ l.phase = .retired

theorem retireHeld_retired {lock house : Lock} {door : Bool}
    (h : retireHeld world request lock house = .retired door) :
    request.successor = some lock.successor ∧ (house.phase = .committed ∨ house.phase = .retiring) ∧
      (lock.role = .household → house.phase = .retiring ∧ door = false ∧ ∀ member ∈ lock.members,
        ∃ lib l, world member.libraryId = some lib ∧ lib.lock = some l ∧ l.phase = .retired) ∧
      (lock.role = .profile → door = decide (house.phase = .committed)) := by
  unfold retireHeld CONFLICT at h
  split at h
  · cases h
  rename_i hsuccessor
  split at h
  · cases h
  split at h
  · cases h
  rename_i hphase
  rw [not_and_or, not_not, not_not] at hphase
  refine ⟨not_not.mp hsuccessor, hphase, ?_⟩
  split at h
  · rename_i hrole
    split at h
    · cases h
    rename_i hmembers
    cases h
    rw [not_or, not_not, not_not, List.all_eq_true] at hmembers
    refine ⟨fun _ => ⟨hmembers.1, rfl, fun member hm => ?_⟩, fun hp => by simp [hrole] at hp⟩
    have := hmembers.2 member hm
    rw [Option.any_eq_true] at this
    obtain ⟨l, hl, hretired⟩ := this
    obtain ⟨lib, hlib, hlock⟩ := Option.bind_eq_some_iff.mp hl
    exact ⟨lib, l, hlib, hlock, by simpa using hretired⟩
  · rename_i hrole
    cases h
    exact ⟨fun hh => by simp [hrole] at hh, fun _ => rfl⟩

theorem retire_retired {door : Bool} (h : retire world request library = .retired door) :
    ∃ lock house, library.lock = some lock ∧ Retires world request lock house door := by
  unfold retire retireAgain GONE CONFLICT at h
  split at h
  · split at h
    · simp only at h
      split_ifs at h
    · cases h
  split at h
  · split at h <;> cases h
  rename_i lock hlock
  rw [Option.filter_eq_some_iff] at hlock
  split at h
  · cases h
  split at h
  · cases h
  rename_i hmay
  rw [not_not] at hmay
  unfold mayAct at hmay
  rw [Option.any_eq_true] at hmay
  obtain ⟨presenter, hpresenter, hmay⟩ := hmay
  split at h
  · rename_i hrole
    obtain ⟨hsuccessor, hphase, hhouse, -⟩ := retireHeld_retired h
    obtain ⟨hretiring, hdoor, hmembers⟩ := hhouse hrole
    refine ⟨lock, lock, hlock.1, hlock.2, by rw [hrole], hsuccessor, hphase, ?_, fun _ => hmembers⟩
    simp [hdoor, hrole]
  · rename_i hrole
    split at h
    · cases h
    rename_i house hhouse
    obtain ⟨hsuccessor, hphase, -, hdoor⟩ := retireHeld_retired h
    rw [hrole, hhouse] at hmay
    simp only [Option.any_some, Bool.and_eq_true, decide_eq_true_eq] at hmay
    refine ⟨lock, house, hlock.1, hlock.2, ?_, hsuccessor, hphase, ?_, fun hh => by simp [hrole] at hh⟩
    · rw [hrole]
      exact ⟨hhouse, hmay.1, by rw [hmay.2, hpresenter]⟩
    · rw [hdoor hrole, hrole]
      simp

end DenEdge.Reset
