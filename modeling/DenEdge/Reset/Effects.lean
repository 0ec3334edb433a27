import DenEdge.Reset.Invariant

/-!
# What each request does

`Acts` says once what an event does to the libraries: the decisions of the model allow no other effect. An act is
a sequence of the steps of `LibStep`, so that the invariant holds in every state the machine reaches.

* `step_acts`: every event acts so, one lemma for each handler.
* `Acts.steps`: an act is a sequence of commits.
* `ServerOK`, `step_serverOK`, `run_serverOK`: the invariant, with the running sweeps.
-/

namespace DenEdge.Reset

variable {hex : Hash → String} {libs libs' : Libraries} {s : Server}

/-- A sequence of commits. -/
abbrev LibSteps : Libraries → Libraries → Prop := Relation.ReflTransGen LibStep

theorem LibSteps.one (h : LibStep libs libs') : LibSteps libs libs' := Relation.ReflTransGen.single h

theorem LibSteps.refl (libs : Libraries) : LibSteps libs libs := Relation.ReflTransGen.refl

variable {id : String} {v : Vault}

theorem targetStore_ok {token : Hash} {wire : Option ℕ} (h : targetStore libs id token wire = .ok v) :
    libs id = .stored v ∧ v.token = token ∧ wire = requiredWire v.wireMin ∧
      (requiredWire v.wireMin).isSome := by
  unfold targetStore at h
  split at h
  · cases h
  · cases h
  · rename_i v' hv
    split at h
    · cases h
    split at h
    · cases h
    rename_i required hrequired
    split at h
    · cases h
    rename_i hwire
    split at h
    · cases h
    rename_i htoken
    cases h
    exact ⟨hv, not_not.mp htoken, by rw [hrequired]; exact not_not.mp hwire, by simp [hrequired]⟩

theorem targetStore_refuses {token : Hash} {wire : Option ℕ} {reply : Reply}
    (h : targetStore libs id token wire = .error reply) : ∃ status error, reply = .refused status error := by
  unfold targetStore at h
  split at h
  · cases h
    exact ⟨_, _, rfl⟩
  · cases h
    exact ⟨_, _, rfl⟩
  split at h
  · cases h
    exact ⟨_, _, rfl⟩
  split at h
  · cases h
    exact ⟨_, _, rfl⟩
  split_ifs at h <;> cases h <;> exact ⟨_, _, rfl⟩

/-- A library a request looks at, as its world sees it. -/
theorem world_target (hex : Hash → String) (target : String) (want : Bool)
    (peers : List (String × Option LibRole)) (hv : libs id = .stored v) (hmem : id ∈ peers.map Prod.fst) :
    ∃ lib, buildWorld hex libs target want peers noWorld id = some lib ∧ lib.lock = v.lock ∧
      lib.retired = false := by
  have hsome : (buildWorld hex libs target want peers noWorld id).isSome :=
    buildWorld_isSome (by rw [hv]; simp) (.inl hmem)
  obtain ⟨lib, hlib⟩ := Option.isSome_iff_exists.mp hsome
  exact ⟨lib, hlib, (buildWorld_noWorld hlib).stored hv⟩

/-! ## What an event does to the libraries -/

/-- The library an event may retire. -/
def Event.target (s : Server) : Event → Option String
  | .retire r => some r.id
  | .forget id _ _ => some id
  | .sweepStep i _ => (s.sweeps[i]?).bind fun task => task.successors.head?
  | _ => none

/-- The marker that a request retires a library with is of the library's live record. -/
def Event.Marks (e : Event) (v : Vault) (m : Marker) : Prop :=
  ∀ r, e = .retire r → ∃ record, v.reset = some record ∧ record.phase.live = true ∧ m = retiredMarker r record

/-- **What an event does to the libraries:** nothing, one edit, or one retirement of the library that it names,
after the retirement door of another was opened or not; a write to an id with no library makes one there. -/
inductive Acts (s : Server) (e : Event) : Libraries → Prop where
  | same : Acts s e s.libs
  | edited (id : String) (v v' : Vault) (hv : s.libs id = .stored v) (h : Commit s e id v v') :
      Acts s e (Function.update s.libs id (.stored v'))
  | created (id : String) (token : Hash) (change : Change) (he : e = .write id token change)
      (hv : s.libs id = .absent) : Acts s e (Function.update s.libs id (.stored (newVault token change)))
  | retired (id : String) (v : Vault) (m : Marker) (htarget : e.target s = some id) (hv : s.libs id = .stored v)
      (hmarker : e.Marks v m) (h : LibStep s.libs (Function.update s.libs id (.moved m))) :
        Acts s e (Function.update s.libs id (.moved m))
  | doored (household id : String) (house house' v : Vault) (m : Marker) (htarget : e.target s = some id)
      (hhouse : s.libs household = .stored house) (hdoor : Commit s e household house house')
      (hv : s.libs id = .stored v)
      (hmarker : e.Marks v m) (h : LibStep (Function.update s.libs household (.stored house'))
        (Function.update (Function.update s.libs household (.stored house')) id (.moved m))) :
      Acts s e (Function.update (Function.update s.libs household (.stored house')) id (.moved m))

variable {e : Event}

theorem commitAt_acts {committed : Except StoreError Vault} {answer : Vault → Reply} (hv : s.libs id = .stored v)
    (h : ∀ v', committed = .ok v' → Commit s e id v v') : Acts s e (commitAt s.libs id committed answer).1 := by
  unfold commitAt
  split
  · exact .same
  · exact .edited id v _ hv (h _ rfl)

/-! ## Acquire, takeover, rollback -/

variable {world : World} {household : String}
variable {library lib : Lib} {successor : Option String} {l : Lock} {record : Record} {v' : Vault} {m : Marker}

theorem step_acquireOrTakeover {request : Req} (hlib : world request.library = some library)
    (hkind : request.kind = .acquire ∨ request.kind = .takeover) :
    step world request = acquireOrTakeover world request library := by
  unfold step
  rw [hlib]
  rcases hkind with hkind | hkind <;> simp [hkind]

/-- What a post is decided on, once nothing refuses it before. -/
structure PostDecides (hex : Hash → String) (libs : Libraries) (p : Post) (v : Vault) (lib : Lib)
    (decision : Decision) : Prop where
  proof : p.proof ≠ some none
  attempt : validId32 p.body.attempt = true
  named : p.body.purpose = PURPOSE → p.body.role = .profile → postHousehold p ≠ none
  target : targetStore libs p.id p.token p.wire = .ok v
  new : v.entries p.body.attempt = none
  seen : buildWorld hex libs p.id true (postPeers p v) noWorld p.id = some lib
  locked : lib.lock = v.lock
  decided : acquireOrTakeover (buildWorld hex libs p.id true (postPeers p v) noWorld)
    (postReq hex p (p.body.purpose = PURPOSE)) lib = .ok decision
  result : post hex libs p = performPost libs p v decision

/-- **A post is refused, told what its attempt was told before, or decided.** -/
theorem post_cases (hex : Hash → String) (libs : Libraries) (p : Post) :
    (∃ status error, post hex libs p = (libs, .refused status error)) ∨
      (∃ v household, targetStore libs p.id p.token p.wire = .ok v ∧
        post hex libs p = (libs, lookupReply v household p.body.attempt)) ∨
      ∃ v lib decision, PostDecides hex libs p v lib decision := by
  rcases hresult : post hex libs p with ⟨libs', reply⟩
  have h := hresult
  unfold post at h
  dsimp only at h
  split_ifs at h with hproof hpurpose hvalid hnamed
  any_goals (cases h; exact .inl ⟨_, _, rfl⟩)
  split at h
  · rename_i refusal hrefusal
    cases h
    obtain ⟨status, error, rfl⟩ := targetStore_refuses hrefusal
    exact .inl ⟨status, error, rfl⟩
  rename_i v htarget
  split at h
  · split_ifs at h <;> cases h
    · exact .inr (.inl ⟨v, _, htarget, rfl⟩)
    · exact .inl ⟨_, _, rfl⟩
  rename_i hnew
  split_ifs at h
  · cases h
    exact .inl ⟨_, _, rfl⟩
  obtain ⟨lib, hlib, hlock, -⟩ :=
    world_target hex p.id true (postPeers p v) (targetStore_ok htarget).1 (by simp [postPeers])
  rw [step_acquireOrTakeover hlib (by unfold postReq; by_cases hp : p.body.purpose = PURPOSE <;> simp [hp])] at h
  split at h
  · rename_i invalid _
    cases h
    cases invalid <;> exact .inl ⟨_, _, rfl⟩
  rename_i decision hstep
  exact .inr (.inr ⟨v, lib, decision, hproof, hvalid, fun ha hp hn => hnamed ⟨ha, hp, hn⟩, htarget, hnew, hlib,
    hlock, hstep, hresult.trans h.symm⟩)

theorem post_acts (hok : LibsOK s.libs) (p : Post) : Acts s (.post p) (post hex s.libs p).1 := by
  rcases post_cases hex s.libs p with ⟨_, _, hpost⟩ | ⟨_, _, -, hpost⟩ | ⟨v, lib, decision, h⟩
  · rw [hpost]
    exact .same
  · rw [hpost]
    exact .same
  have hv := (targetStore_ok h.target).1
  have hvok := hok.vaults _ _ hv
  have hlock := h.locked
  have hstep := h.decided
  have hnew := h.new
  rw [h.result]
  cases decision with
  | opens pre =>
    obtain ⟨hkind, presenter, role, expected, hopens⟩ := acquireOrTakeover_opens hstep
    have hpurpose : p.body.purpose = PURPOSE := by
      by_contra hne
      simp [postReq, hne] at hkind
    have hfree : ∀ old, v.reset = some old → old.role = .household → old.phase.live = false := by
      -- a live household lock would be in force
      intro old hold hhouse
      by_contra hlive
      rw [Bool.not_eq_false] at hlive
      have hfree := hopens.free
      rw [hlock, hvok.lock_live hold hlive] at hfree
      simp [held, heldLock, Record.model, hhouse, hlive] at hfree
    refine commitAt_acts hv fun v' hopen => ?_
    cases hrole : p.body.role with
    | household =>
      rw [hrole] at hopen
      exact openEdit_commit (fun _ => ⟨p, rfl, rfl, hrole, hpurpose, rfl⟩) hnew hfree rfl rfl rfl hopen
    | profile =>
      rw [hrole] at hopen
      exact openEdit_commit (fun hhouse => by cases hrole.symm.trans hhouse) hnew hfree rfl rfl rfl hopen
  | takeover phase =>
    obtain ⟨lock, hrec, -⟩ := acquireOrTakeover_recovers hstep (.inr ⟨phase, rfl⟩)
    obtain ⟨record, swept, hreset, rfl⟩ := hvok.lock (hlock ▸ hrec.isLock)
    have hrole : record.role = .household := hrec.role
    have hlive : record.phase.live = true := by
      have hheld := hrec.held
      simpa [heldLock, Record.model, hrole] using hheld
    exact commitAt_acts hv fun v' htaken => takeover_commit hreset hrole hlive htaken
  | rollback =>
    obtain ⟨lock, hrec, hd⟩ := acquireOrTakeover_recovers hstep (.inl rfl)
    obtain ⟨record, swept, hreset, rfl⟩ := hvok.lock (hlock ▸ hrec.isLock)
    obtain ⟨hcredential, hphase⟩ : (postReq hex p (p.body.purpose = PURPOSE)).successorCredential = none ∧
        record.phase = .committed := by
      rcases hd with ⟨-, hnone, hp⟩ | ⟨hd, -⟩
      · exact ⟨hnone, hp⟩
      · cases hd
    -- a proof that is there and usable is a credential
    have hnone : p.proof = none := by
      simp only [postReq, Option.map_eq_none_iff, Option.join_eq_none_iff] at hcredential
      exact hcredential.resolve_right h.proof
    have hpurpose : p.body.purpose ≠ PURPOSE := by
      intro hp
      exact acquireOrTakeover_kind hstep (.inl rfl) (by simp [postReq, hp])
    exact commitAt_acts hv fun v' hended =>
      endReset_commit hreset (.inr ⟨p, rfl, rfl, hpurpose, hnone⟩) (.inr hphase) hended
  | _ => exact .same

/-! ## Successor commit and abort -/

variable {attempt : String}

theorem step_attempt (hlib : world id = some library)
    (hvalid : validId32 attempt = true) :
    step world (attemptReq .commit id attempt successor) =
        commit world (attemptReq .commit id attempt successor) library.lock ∧
      step world (attemptReq .abort id attempt successor) = .ok (abort world library (some attempt)) ∧
      step world (attemptReq .retire id attempt successor) =
        .ok (retire world (attemptReq .retire id attempt successor) library) := by
  have hlib' : ∀ kind, world (attemptReq kind id attempt successor).library = some library := fun _ => hlib
  have hattempt : ∀ kind, (attemptReq kind id attempt successor).attempt.all validId32 = true := fun _ => by
    simpa [attemptReq] using hvalid
  refine ⟨?_, ?_, ?_⟩ <;> unfold step <;> rw [hlib'] <;> simp only [hattempt] <;> simp [attemptReq]

theorem successorCommit_acts (hok : LibsOK s.libs) (r : HouseholdRequest) :
    Acts s (.successorCommit r) (successorCommit hex s.libs r).1 := by
  unfold successorCommit
  split
  · exact .same
  rename_i hvalid
  split
  · exact .same
  rename_i v htarget
  have hv := (targetStore_ok htarget).1
  obtain ⟨lib, hlib, hlock, -⟩ := world_target hex r.id false (commitPeers r.id v) hv (by simp [commitPeers])
  dsimp only
  rw [(step_attempt hlib (not_not.mp hvalid)).1]
  split
  · exact .same
  · exact .same
  · exact .same
  · rename_i hdecision
    obtain ⟨l, hl, hphase⟩ := commit_committed hdecision
    obtain ⟨record, swept, hreset, rfl⟩ := (hok.vaults _ _ hv).lock (hlock ▸ hl)
    exact commitAt_acts hv fun v' hv' => commitSuccessor_commit hreset hphase hv'
  · exact .same

theorem abortRequest_acts (hok : LibsOK s.libs) (r : HouseholdRequest) :
    Acts s (.abort r) (abortRequest hex s.libs r).1 := by
  unfold abortRequest
  split
  · exact .same
  rename_i hvalid
  split
  · exact .same
  rename_i v htarget
  have hv := (targetStore_ok htarget).1
  obtain ⟨lib, hlib, hlock, -⟩ := world_target hex r.id false [(r.id, none)] hv (by simp)
  dsimp only
  rw [(step_attempt hlib (not_not.mp hvalid)).2.1]
  split
  · exact .same
  · exact .same
  · exact .same
  · rename_i hdecision
    obtain ⟨l, hl, hphase⟩ := abort_aborted (Except.ok.inj hdecision)
    obtain ⟨record, swept, hreset, rfl⟩ := (hok.vaults _ _ hv).lock (hlock ▸ hl)
    exact commitAt_acts hv fun v' hv' => endReset_commit hreset (.inl ⟨r, rfl, rfl⟩) (.inl hphase) hv'
  · exact .same

/-! ## Retirement -/

theorem withoutOther_lock (h : (lib.withoutOther attempt).lock = some l) :
    lib.withoutOther attempt = lib := by
  unfold Lib.withoutOther at h ⊢
  split
  · rename_i hother
    rw [if_pos hother] at h
    cases h
  · rfl

/-- Forgetting members retired by other resets only takes locks away. -/
theorem forgetOthers_lock
    (h : forgetOthers record world id = some lib) (hl : lib.lock = some l) : world id = some lib := by
  unfold forgetOthers at h
  split_ifs at h
  · generalize record.members = members at h
    induction members generalizing world with
    | nil => exact h
    | cons member _ ih =>
      rw [List.foldl_cons] at h
      have hnext := ih h
      by_cases hid : id = member.libraryId
      · subst hid
        rw [Function.update_self] at hnext
        obtain ⟨lib', hlib', rfl⟩ := Option.map_eq_some_iff.mp hnext
        rw [withoutOther_lock hl]
        exact hlib'
      · rwa [Function.update_of_ne hid] at hnext
  · exact h

/-- What a retirement the model allows was decided on, in what is stored. -/
theorem retire_decided (hok : LibsOK libs) {door : Bool}
    (hv : libs id = .stored v) (hr : v.reset = some record) (hvalid : validId32 attempt = true)
    (hstep : step (forgetOthers record (buildWorld hex libs id false (retirePeers id record) noWorld))
      (attemptReq .retire id attempt successor) = .ok (.retired door)) :
    record.phase.live = true ∧ (record.role = .household → door = false) ∧
      (record.role = .profile → ∃ household house r, record.household = some household ∧
        libs household = .stored house ∧ house.reset = some r ∧ r.role = .household ∧ r.attempt = record.attempt ∧
        household ≠ id ∧ (door = true → r.phase = .committed) ∧ (door = false → r.phase = .retiring)) := by
  generalize hworld : forgetOthers record (buildWorld hex libs id false (retirePeers id record) noWorld) =
    world at hstep
  cases hlib : world id with
  | none =>
    unfold step at hstep
    have : world (attemptReq .retire id attempt successor).library = none := hlib
    rw [this] at hstep
    cases hstep
  | some lib =>
    rw [(step_attempt hlib hvalid).2.2] at hstep
    obtain ⟨lock, house, hlock, hret⟩ := retire_retired (Except.ok.inj hstep)
    have hseen := (buildWorld_noWorld (forgetOthers_lock (hworld ▸ hlib) hlock)).stored hv
    obtain ⟨r₀, swept, hr₀, rfl⟩ := (hok.vaults _ _ hv).lock (hseen.1 ▸ hlock)
    rw [hr] at hr₀
    cases hr₀
    have hrole : (record.model swept).role = record.role := rfl
    refine ⟨?_, fun hh => ?_, fun hp => ?_⟩
    · -- its lock is in force
      have hheld := hret.held
      cases hlives : record.role with
      | household => simpa [heldLock, Record.model, hlives] using hheld
      | profile =>
        simp only [heldLock, Record.model, hlives, Option.any_eq_true, Bool.and_eq_true,
          decide_eq_true_eq] at hheld
        obtain ⟨_, -, ⟨hphase, -⟩, -⟩ := hheld
        rw [hphase]
        rfl
    · by_contra hdoor
      rw [Bool.not_eq_false] at hdoor
      have := (hret.opensDoor.mp hdoor).1
      rw [hrole, hh] at this
      cases this
    · -- the household's lock is seen in the world, and only a stored record has a phase before `retired`
      have hauth := hret.authority
      rw [hrole, hp] at hauth
      obtain ⟨hhouse, hattempt, howner⟩ := hauth
      unfold householdLock at hhouse
      obtain ⟨household, hhousehold, hhouse⟩ := Option.bind_eq_some_iff.mp hhouse
      obtain ⟨hlibs, hhl, hhlock⟩ := Option.bind_eq_some_iff.mp hhouse
      have hseen' := buildWorld_noWorld (forgetOthers_lock (hworld ▸ hhl) hhlock)
      cases hstored : libs household with
      | absent => exact absurd hstored hseen'.not_absent
      | moved m =>
        have hmoved := (hseen'.moved hstored).1
        rw [hhlock] at hmoved
        cases m with
        | bare s => cases hmoved
        | exclusive s t =>
          have hphase := hret.phase
          rw [Option.some.inj hmoved] at hphase
          exact absurd hphase (by simp [tombstoneLock])
      | stored hv' =>
        obtain ⟨r, sw, hr', hmodel⟩ := (hok.vaults _ _ hstored).lock ((hseen'.stored hstored).1 ▸ hhlock)
        subst hmodel
        have hhrole : r.role = .household := by
          by_contra hne
          have howner' : some (Record.model r sw).owner = some attempt := howner
          simp only [Record.model, if_neg hne, Option.some.injEq] at howner'
          rw [← howner'] at hvalid
          exact absurd hvalid (by decide)
        refine ⟨household, hv', r, hhousehold, hstored, hr', hhrole, hattempt, ?_, ?_, ?_⟩
        · intro hid
          subst hid
          rw [hv] at hstored
          cases hstored
          rw [hr] at hr'
          cases hr'
          rw [hp] at hhrole
          cases hhrole
        · exact fun hd => (hret.opensDoor.mp hd).2
        · intro hd
          rcases hret.phase with hc | hc
          · have := hret.opensDoor.mpr ⟨hp, hc⟩
            rw [hd] at this
            cases this
          · exact hc

theorem retireRequest_acts (hok : LibsOK s.libs) (r : RetireRequest) :
    Acts s (.retire r) (retireRequest hex s.libs r).1 := by
  unfold retireRequest
  split
  · exact .same
  rename_i hvalid
  split
  · exact .same
  · exact .same
  rename_i v hv
  split
  · exact .same
  split
  · exact .same
  split
  · exact .same
  rename_i record hr
  dsimp only
  split
  · exact .same
  · exact .same
  · rename_i door hstep
    obtain ⟨hlive, hhousehold, hprofile⟩ := retire_decided hok hv hr (not_not.mp hvalid) hstep
    have hmarker : Event.Marks (.retire r) v (retiredMarker r record) := by
      rintro _ ⟨⟩
      exact ⟨record, hr, hlive, rfl⟩
    unfold performRetire
    split
    · exact .same
    · -- the marker, once the household is known to be retiring
      cases hrole : record.role with
      | household =>
        rw [hhousehold hrole]
        refine .retired r.id v _ rfl hv hmarker
          (.retired r.id r.successor v record _ hv hr rfl rfl rfl fun hp => ?_)
        rw [hrole] at hp
        cases hp
      | profile =>
        obtain ⟨household, house, rec', hh, hstored, hreset, hrec, hattempt, hne, hcommitted, hretiring⟩ :=
          hprofile hrole
        cases door with
        | false =>
          refine .retired r.id v _ rfl hv hmarker
            (.retired r.id r.successor v record _ hv hr rfl rfl rfl fun _ => ?_)
          exact ⟨household, house, rec', hh, hstored, hreset, hrec, hattempt, hretiring rfl⟩
        | true =>
          simp only [hh, Option.bind_some, hstored, Library.vault, Option.map_some, if_true]
          split
          · exact .same
          · rename_i house' hdoor
            obtain ⟨hcommit, hreset'⟩ := openDoor_commit hreset hdoor
            split
            · exact .edited household house house' hstored hcommit
            · refine .doored household r.id house house' v _ rfl hstored hcommit hv hmarker
                (.retired r.id r.successor v record _ ?_ hr rfl rfl rfl fun _ => ?_)
              · rw [Function.update_of_ne (Ne.symm hne)]
                exact hv
              · exact ⟨household, house', _, hh, Function.update_self .., hreset', hrec, hattempt, rfl⟩
  · exact .same
  · exact .same

/-! ## Ordinary writes and sweeps -/

theorem Library.vault_eq_some {library : Library} (h : library.vault = some v) : library = .stored v := by
  cases library with
  | stored w =>
    cases h
    rfl
  | absent => cases h
  | moved m => cases h

/-- What an ordinary write proceeds with, as an edit. -/
theorem writeBlocked_clears (h : writeBlocked libs v = some v') :
    (v' = v ∧ v.key = none) ∨ ∃ record, v.reset = some record ∧ record.role = .profile ∧
      clearVoid v record = .ok v' := by
  unfold writeBlocked at h
  split at h
  · rename_i hkey
    cases h
    exact .inl ⟨rfl, hkey⟩
  · cases h
  · rename_i key record hkey hreset
    split at h
    · cases h
    rename_i hmine
    rw [not_or, not_or, not_not, not_not] at hmine
    split at h
    · cases h
    split at h
    · cases hc : clearVoid v record with
      | error e =>
        rw [hc] at h
        cases h
      | ok w =>
        rw [hc] at h
        cases h
        exact .inr ⟨record, hreset, hmine.1, hc⟩
    · cases h

theorem writeEvent_acts (s : Server) (id : String) (token : Hash) (change : Change) :
    Acts s (.write id token change) (writeEvent s.libs id token change) := by
  unfold writeEvent
  split
  · rename_i habsent
    exact .created id token change rfl habsent
  · exact .same
  · rename_i v hv
    split
    · exact .same
    split
    · exact .same
    · rename_i free hfree
      rcases writeBlocked_clears hfree with ⟨rfl, hkey⟩ | ⟨record, hreset, hrole, hclear⟩
      · exact .edited id _ _ hv ⟨.written hkey hkey rfl rfl, fun _ ha => ha, fun hactive => hactive, rfl⟩
      · exact .edited id v _ hv (clearVoid_commit hreset hrole hclear (.inr ⟨change, rfl⟩))

theorem forgetEvent_acts (s : Server) (id : String) (token : Hash) (successor : String) :
    Acts s (.forget id token successor) (forgetEvent s.libs id token successor) := by
  unfold forgetEvent
  split
  · rename_i v hv
    split
    · exact .same
    split
    · exact .same
    · exact .retired id v _ rfl hv (nofun) (.deleted id successor v hv)
  · exact .same

theorem onVault_acts (id : String) {f : Vault → Vault} (hf : ∀ v, f v = v ∨ Commit s e id v (f v)) :
    Acts s e (onVault s.libs id f) := by
  unfold onVault
  split
  · rename_i v hv
    rcases hf v with heq | hcommit
    · rw [heq, ← hv, Function.update_eq_self]
      exact .same
    · exact .edited id v _ hv hcommit
  · exact .same

theorem clearVoidMember_cases (v : Vault) (attempt : String) :
    clearVoidMember v attempt = v ∨ ∃ record, v.reset = some record ∧ record.role = .profile ∧
      clearVoid v record = .ok (clearVoidMember v attempt) := by
  unfold clearVoidMember
  split
  · exact .inl rfl
  · rename_i record hreset
    split
    · rename_i hmine
      cases hc : clearVoid v record with
      | error e => exact .inl rfl
      | ok w => exact .inr ⟨record, hreset, hmine.2.1, hc⟩
    · exact .inl rfl

theorem sweepDone_cases (v : Vault) (owed : Owed) :
    sweepDone v owed = v ∨ (v.sweep = some owed ∧ sweepDone v owed = { v with sweep := none }) := by
  unfold sweepDone
  by_cases howed : v.sweep = some owed
  · refine .inr ⟨howed, ?_⟩
    simp [Vault.commit, Edit.new, LockExpect.admits, LockChange.apply, howed, Except.toOption]
  · refine .inl ?_
    simp [Vault.commit, Edit.new, LockExpect.admits, howed, Except.toOption]

theorem sweepStep_acts (s : Server) (i : ℕ) (fails : Bool) :
    Acts s (.sweepStep i fails) (sweepStep s i fails).libs := by
  unfold sweepStep
  split
  · exact .same
  rename_i task htask
  split
  · exact .same
  rename_i hfails
  obtain rfl : fails = false := by simpa using hfails
  have hcommit : Acts s (.sweepStep i false) (sweepCommit s.libs task).1 := by
    unfold sweepCommit
    split
    · rename_i successor rest hsuccessors
      unfold deleteSuccessor
      split
      · rename_i v hv
        exact .retired successor v _ (by simp [Event.target, htask, hsuccessors]) hv (nofun) (.deleted _ "" v hv)
      · exact .same
    · refine onVault_acts _ fun v => (clearVoidMember_cases v task.owed.attempt).imp_right ?_
      rintro ⟨record, hreset, hrole, hclear⟩
      exact clearVoid_commit hreset hrole hclear (.inl rfl)
    · rename_i hsuccessors hmembers
      refine onVault_acts _ fun v => (sweepDone_cases v task.owed).imp_right ?_
      rintro ⟨howed, hdone⟩
      rw [hdone]
      exact ⟨.swept task (List.mem_of_getElem? htask) rfl hsuccessors howed rfl, fun _ ha => ha,
        fun hactive => hactive, rfl⟩
  split <;> (rename_i hnext; rw [hnext] at hcommit; exact hcommit)

theorem step_acts (hok : LibsOK s.libs) (e : Event) : Acts s e (s.step hex e).libs := by
  cases e with
  | post p => exact post_acts hok p
  | successorCommit r => exact successorCommit_acts hok r
  | abort r => exact abortRequest_acts hok r
  | retire r => exact retireRequest_acts hok r
  | write id token change => exact writeEvent_acts s id token change
  | forget id token successor => exact forgetEvent_acts s id token successor
  | sweepStart =>
    simp only [Server.step, sweepStart]
    split <;> exact .same
  | sweepStep i fails => exact sweepStep_acts s i fails
  | crash => exact .same

/-! ## Acts are sequences of commits -/

theorem Acts.steps (h : Acts s e libs') : LibSteps s.libs libs' := by
  cases h with
  | same => exact .refl _
  | edited id v v' hv h => exact .one (.committed s e id v v' hv h)
  | created id token change _ hv => exact .one (.created id token change hv)
  | retired id v m _ _ _ h => exact .one h
  | doored _ _ _ _ _ _ _ hhouse hdoor _ _ h => exact (LibSteps.one (.committed s e _ _ _ hhouse hdoor)).tail h

/-! ## The invariant over runs -/

/-- No member is retired under an attempt of a household. -/
def Unmarked (libs : Libraries) (household attempt : String) : Prop :=
  ∀ id successor t, libs id = .moved (.exclusive successor t) → t.role = .profile → t.household = some household →
    t.acquired ≠ attempt

theorem LibStep.unmarked (h : LibStep libs libs') (he : Ended libs household attempt)
    (hu : Unmarked libs household attempt) : Unmarked libs' household attempt := by
  intro id successor t hm hrole hh
  have hold : ∀ {i : String} {new : Library}, id ≠ i →
      Function.update libs i new id = .moved (.exclusive successor t) → t.acquired ≠ attempt := by
    intro i new hne hm
    rw [Function.update_of_ne hne] at hm
    exact hu id successor t hm hrole hh
  cases h with
  | committed _ _ i | created i | deleted i =>
    by_cases hid : id = i
    · subst hid
      rw [Function.update_self] at hm
      cases hm
    · exact hold hid hm
  | retired i s v r t' hv hr hacquired hrole' hhousehold hdecided =>
    by_cases hid : id = i
    · -- a new marker: its household's record is retiring, so its attempt has not ended
      subst hid
      rw [Function.update_self] at hm
      cases hm
      obtain ⟨house, hvault, record, hhouse, hstored, hreset, -, hattempt, hphase⟩ := hdecided (hrole' ▸ hrole)
      rw [hhousehold, hhouse] at hh
      cases hh
      intro hac
      rcases he with ⟨v', hv', -, hended⟩ | ⟨m, hm⟩
      · rw [hstored] at hv'
        cases hv'
        have := hended record hreset (by rw [hattempt, ← hacquired, hac])
        rw [hphase] at this
        cases this
      · rw [hstored] at hm
        cases hm
    · exact hold hid hm

structure ServerOK (s : Server) : Prop where
  libs : LibsOK s.libs
  sweeps : ∀ task ∈ s.sweeps,
    Ended s.libs task.household task.owed.attempt ∧ Unmarked s.libs task.household task.owed.attempt

theorem LibSteps.libsOK (h : LibSteps libs libs') (hok : LibsOK libs) : LibsOK libs' := by
  induction h with
  | refl => exact hok
  | tail _ hstep ih => exact ih.step hstep

theorem LibSteps.sweep (h : LibSteps libs libs')
    (he : Ended libs household attempt ∧ Unmarked libs household attempt) :
    Ended libs' household attempt ∧ Unmarked libs' household attempt := by
  induction h with
  | refl => exact he
  | tail _ hstep ih => exact ⟨hstep.ended ih.1, hstep.unmarked ih.1 ih.2⟩

theorem LibSteps.moved (h : LibSteps libs libs') (hm : libs id = .moved m) : libs' id = .moved m := by
  induction h with
  | refl => exact hm
  | tail _ hstep ih => exact hstep.moved ih

/-- What a household owes is of an attempt that ended, and under which no member was retired. -/
theorem LibsOK.owed (hok : LibsOK libs) {owed : Owed} (hv : libs household = .stored v)
    (ho : v.sweep = some owed) : Ended libs household owed.attempt ∧ Unmarked libs household owed.attempt := by
  obtain ⟨hentry, hended⟩ := (hok.vaults _ _ hv).swept owed ho
  refine ⟨.inl ⟨v, hv, hentry, hended⟩, fun id successor t hm hrole hh hac => ?_⟩
  obtain ⟨household', hh', hd⟩ := hok.markers id _ hm hrole
  rw [hh] at hh'
  cases hh'
  rcases hd with ⟨v', r, hv', hr, -, hattempt, hphase⟩ | ⟨m, hmoved⟩
  · rw [hv] at hv'
    cases hv'
    have := hended r hr (hattempt.trans hac)
    rw [hphase] at this
    cases this
  · rw [hv] at hmoved
    cases hmoved

/-- The libraries after an event are reached by commits. -/
theorem step_libSteps {s : Server} (hok : ServerOK s) (e : Event) : LibSteps s.libs (s.step hex e).libs :=
  (step_acts hok.libs e).steps

/-- What an event leaves of the sweeps of a household that stays stored: a sweep ran before, with as much or one
more to do, or it starts from the household's list. -/
theorem step_tasks {s : Server} {task : SweepTask} (h : task ∈ (s.step hex e).sweeps) :
    (∃ old ∈ s.sweeps, old.household = task.household ∧ old.owed = task.owed ∧ (old.successors = task.successors ∨
        ∃ y, old.successors = y :: task.successors ∧ (s.step hex e).libs = deleteSuccessor s.libs y)) ∨
      ∃ v, s.libs task.household = .stored v ∧ v.sweep = some task.owed ∧ task.successors = task.owed.successors ∧
        (s.step hex e).libs = s.libs := by
  cases e with
  | sweepStart =>
    simp only [Server.step, sweepStart] at h ⊢
    split at h
    · exact .inl ⟨task, h, rfl, rfl, .inl rfl⟩
    · rename_i owed howed
      rcases List.mem_append.mp h with hmem | hmem
      · exact .inl ⟨task, hmem, rfl, rfl, .inl rfl⟩
      · rw [List.mem_singleton] at hmem
        subst hmem
        obtain ⟨v, hv, hsweep⟩ := Option.bind_eq_some_iff.mp howed
        exact .inr ⟨v, Library.vault_eq_some hv, hsweep, rfl, rfl⟩
  | sweepStep i fails =>
    left
    simp only [Server.step, sweepStep] at h ⊢
    split at h
    · exact ⟨task, h, rfl, rfl, .inl rfl⟩
    rename_i old hold
    split at h
    · exact ⟨task, List.mem_of_mem_eraseIdx h, rfl, rfl, .inl rfl⟩
    rename_i hfails
    have hfails : fails = false := by simpa using hfails
    subst hfails
    split at h
    · exact ⟨task, List.mem_of_mem_eraseIdx h, rfl, rfl, .inl rfl⟩
    rename_i libs next hnext
    rcases List.mem_or_eq_of_mem_set h with hmem | rfl
    · exact ⟨task, hmem, rfl, rfl, .inl rfl⟩
    · refine ⟨old, List.mem_of_getElem? hold, ?_⟩
      unfold sweepCommit at hnext
      split at hnext
      · rename_i y rest hsuccessors
        cases hnext
        exact ⟨rfl, rfl, .inr ⟨y, hsuccessors, rfl⟩⟩
      · cases hnext
        exact ⟨rfl, rfl, .inl rfl⟩
      · cases hnext
  | crash => cases h
  | _ => exact .inl ⟨task, h, rfl, rfl, .inl rfl⟩

/-- **Every event keeps the invariant.** -/
theorem step_serverOK {s : Server} (hok : ServerOK s) (e : Event) : ServerOK (s.step hex e) := by
  have hsteps : LibSteps s.libs (s.step hex e).libs := step_libSteps hok e
  refine ⟨hsteps.libsOK hok.libs, fun task htask => ?_⟩
  rcases step_tasks htask with ⟨old, hold, hh, ho, -⟩ | ⟨v, hv, hsweep, -, hsame⟩
  · rw [← hh, ← ho]
    exact hsteps.sweep (hok.sweeps old hold)
  · rw [hsame]
    exact hok.libs.owed hv hsweep

theorem empty_serverOK : ServerOK Server.empty := by
  refine ⟨⟨fun _ _ hv => ?_, fun _ _ hm => ?_⟩, fun _ htask => ?_⟩
  · cases hv
  · cases hm
  · cases htask

/-- The invariant holds in every state that is reached. -/
theorem run_serverOK (hex : Hash → String) (es : List Event) :
    ServerOK (Run.exec (Server.step hex) Server.empty es) :=
  Run.exec_inv_all (I := ServerOK) (fun _ e hok => step_serverOK hok e) es empty_serverOK

/-- What is retired stays retired. -/
theorem run_moved {s : Server} (hok : ServerOK s) (es : List Event) (hm : s.libs id = .moved m) :
    (Run.exec (Server.step hex) s es).libs id = .moved m := by
  induction es generalizing s with
  | nil => exact hm
  | cons e es ih => exact ih (step_serverOK hok e) ((step_libSteps hok e).moved hm)

end DenEdge.Reset
