import DenEdge.Reset.Retirement

/-!
# A member's lock, and acquires by other attempts

Whether a profile library's lock is in force is decided over the world of the request, and that world holds the
household the request names, not the one the lock names. `post_acquire_iff` says exactly which acquires by another
attempt get through a lock that is in force: those declared by a second household (`Poaches`).
-/

namespace DenEdge.Reset

variable {hex : Hash → String} {libs : Libraries}

/-- A profile library's lock in force: the key and the record name an attempt, and so does the live record of the
household the lock names. -/
structure InForce (libs : Libraries) (id attempt household : String) (record : Record) : Prop where
  key : (libs id).key = some attempt
  reset : (libs id).reset = some record
  ofAttempt : record.attempt = attempt
  role : record.role = .profile
  phase : record.phase = .opened
  ofHousehold : record.household = some household
  house : ∃ house, (libs household).reset = some house ∧ house.role = .household ∧ house.attempt = attempt ∧
    house.phase.live = true

/-- A request that is turned away: refused, or told how its attempt ended. -/
def Reply.turnsAway : Reply → Bool
  | .refused _ _ => true
  | .stored (.opened _ _) => false
  | .stored _ => true
  | _ => false

/-- An acquire that gets through another attempt's lock: in order, for a holder of the library's token and current
source, and naming a household other than the lock's whose own open reset, of the acquiring attempt, declares the
library. -/
structure Poaches (libs : Libraries) (p : Post) (household : String) (record : Record) : Prop where
  role : p.body.role = .profile
  attempt : validId32 p.body.attempt = true
  source : validSource p.body.expectedSource = true
  successor : p.body.successor.any validId32OrLibrary = true
  proof : p.proof ≠ some none
  unseen : p.proof.isSome → record.successor ≠ household ∧ record.successor ≠ p.id
  store : ∃ v, libs p.id = .stored v ∧ v.wireMin = 4 ∧ p.wire = some 4 ∧ v.token = p.token ∧
    v.entries p.body.attempt = none ∧ v.source = p.body.expectedSource
  other : ∃ other house, p.body.household = some other ∧ other ≠ household ∧ validHexId other = true ∧
    validId32OrLibrary other = true ∧ (libs other).reset = some house ∧ house.role = .household ∧
    house.phase = .opened ∧ house.attempt = p.body.attempt ∧ house.owner = p.body.attempt ∧
    ⟨p.id, p.body.successor.getD ""⟩ ∈ house.members

/-! ## What an acquire comes to -/

variable {id attempt household other : String} {record : Record} {v : Vault} {p : Post}

theorem InForce.reset_stored (hforce : InForce libs id attempt household record)
    (hv : libs id = .stored v) : v.reset = some record := by
  have hreset := hforce.reset
  rw [hv] at hreset
  exact hreset

/-- A member's library is no household. -/
theorem InForce.ne_house {house : Record} (hforce : InForce libs id attempt household record)
    (hhouse : (libs other).reset = some house) (hrole : house.role = .household) : other ≠ id := by
  rintro rfl
  rw [hforce.reset] at hhouse
  cases hhouse
  rw [hforce.role] at hrole
  cases hrole

/-- What another attempt is told of itself, where a profile's lock is the current one: never that it is open. -/
theorem lookupReply_turnsAway (hok : VaultOK v) {household : Option Library} (hreset : v.reset = some record)
    (hrole : record.role = .profile) (hattempt : record.attempt ≠ attempt) :
    (lookupReply v household attempt).turnsAway = true := by
  unfold lookupReply lookupBody
  cases he : v.entries attempt with
  | none => rfl
  | some entry =>
    simp only [Option.map_some]
    split_ifs with hstate hvoid
    · unfold terminalAnswer
      cases hs : entry.state <;> rfl
    · rfl
    · -- an active entry of a household's reset would be the owner's of a household record
      exfalso
      rw [not_not] at hstate
      rcases hentry : entry.role with _ | _
      · obtain ⟨r, hr, hhouse, -⟩ := hok.active attempt entry he hstate hentry
        rw [hreset] at hr
        cases hr
        rw [hrole] at hhouse
        cases hhouse
      · exact hvoid ⟨hentry, .inr (by simp [hreset, hattempt])⟩

/-- What the model decides of an acquire by another attempt on a profile's lock: a refusal, or a new lock. -/
theorem performPost_acquire (libs : Libraries) (hok : VaultOK v) {world : World} {lib : Lib} {decision : Decision}
    (hreset : v.reset = some record) (hrole : record.role = .profile) (hphase : record.phase = .opened)
    (hattempt : record.attempt ≠ p.body.attempt) (hlock : lib.lock = v.lock)
    (hstep : acquireOrTakeover world (postReq hex p (p.body.purpose = PURPOSE)) lib = .ok decision) :
    ((performPost libs p v decision).1 = libs ∧ (performPost libs p v decision).2.turnsAway = true) ∨
      ∃ pre, decision = .opens pre := by
  have hlive : v.lock = some (record.model false) := hok.lock_live hreset (by rw [hphase]; rfl)
  have hnot : ∀ lock, ¬ Recoverable world (postReq hex p (p.body.purpose = PURPOSE)) lib lock := by
    intro lock hrec
    have hl := hrec.isLock
    rw [hlock, hlive] at hl
    cases hl
    have hhouse : record.role = .household := hrec.role
    rw [hrole] at hhouse
    cases hhouse
  cases decision with
  | opens pre => exact .inr ⟨pre, rfl⟩
  | takeover phase =>
    obtain ⟨lock, hrec, -⟩ := acquireOrTakeover_recovers hstep (.inr ⟨phase, rfl⟩)
    exact absurd hrec (hnot lock)
  | rollback =>
    obtain ⟨lock, hrec, -⟩ := acquireOrTakeover_recovers hstep (.inl rfl)
    exact absurd hrec (hnot lock)
  | lookup => exact .inl ⟨rfl, lookupReply_turnsAway hok hreset hrole hattempt⟩
  | _ => exact .inl ⟨rfl, rfl⟩

/-- An acquire by another attempt on a profile's lock: turned away with nothing changed, or a new lock. -/
theorem post_acquire (hex : Hash → String) (hok : LibsOK libs)
    (hforce : InForce libs p.id attempt household record) (hother : p.body.attempt ≠ attempt) :
    ((post hex libs p).1 = libs ∧ (post hex libs p).2.turnsAway = true) ∨
      ∃ v lib pre, PostDecides hex libs p v lib (.opens pre) := by
  obtain ⟨v, hv, hreset⟩ := Library.reset_eq_some hforce.reset
  have hvok := hok.vaults _ _ hv
  have hattempt : record.attempt ≠ p.body.attempt := hforce.ofAttempt ▸ hother.symm
  rcases post_cases hex libs p with ⟨_, _, hpost⟩ | ⟨w, household, htarget, hpost⟩ | ⟨w, lib, decision, h⟩
  · rw [hpost]
    exact .inl ⟨rfl, rfl⟩
  · cases hv.symm.trans (targetStore_ok htarget).1
    rw [hpost]
    exact .inl ⟨rfl, lookupReply_turnsAway hvok hreset hforce.role hattempt⟩
  · cases hv.symm.trans (targetStore_ok h.target).1
    rcases performPost_acquire libs hvok hreset hforce.role hforce.phase hattempt h.locked h.decided with
      hkept | ⟨pre, rfl⟩
    · rw [h.result]
      exact .inl hkept
    · exact .inr ⟨v, lib, pre, h⟩

/-! ## Which acquires get through -/

theorem postPeers_profile (hreset : v.reset = some record) (hother : postHousehold p = some other) :
    postPeers p v = (p.id, none) :: (other, some .household) ::
      if p.proof.isSome then [(record.successor, some .successor)] else [] := by
  unfold postPeers
  rw [hother, hreset]
  rfl

theorem postHousehold_some (h : postHousehold p = some other) :
    p.body.household = some other ∧ validHexId other = true := by
  unfold postHousehold at h
  split at h
  · exact Option.filter_eq_some_iff.mp h
  · cases h

/-- The lock's own household is not in the world of an acquire that is let through. -/
theorem household_unseen (hok : LibsOK libs) {world : World} (hforce : InForce libs id attempt household record)
    (hworld : ∀ lib, world household = some lib → Sees hex libs household lib)
    (hfree : held world (some (record.model false)) = false) : world household = none := by
  obtain ⟨house, hhouse, hrole, hattempt, hlive⟩ := hforce.house
  obtain ⟨hv, hstored, hreset⟩ := Library.reset_eq_some hhouse
  by_contra hseen
  obtain ⟨lib, hlib⟩ := Option.ne_none_iff_exists'.mp hseen
  have hlock := ((hworld lib hlib).stored hstored).1
  rw [(hok.vaults _ _ hstored).lock_live hreset hlive] at hlock
  have hlock' : householdLock world (record.model false) = some (house.model false) := by
    simp [householdLock, Record.model, hforce.ofHousehold, hlib, hlock]
  simp only [held, Option.any_some, heldLock, hlock'] at hfree
  simp [Record.model, hforce.role, hforce.phase, hforce.ofAttempt, hattempt, hlive] at hfree

/-- Who a world's household lock is, where it declares a library to its own attempt. -/
theorem declaredBy_house (hok : LibsOK libs) {world : World} {request : Req} {presenter : String}
    (hother : request.household = some other) (hvalid : validId32 presenter = true)
    (hworld : ∀ lib, world other = some lib → Sees hex libs other lib)
    (h : declaredBy world request presenter = true) :
    ∃ house, (libs other).reset = some house ∧ house.role = .household ∧ house.phase = .opened ∧
      house.attempt = presenter ∧ house.owner = presenter ∧
      ⟨request.library, request.successor.getD ""⟩ ∈ house.members := by
  unfold declaredBy at h
  rw [hother, Option.bind_some] at h
  obtain ⟨lock, hlock, hdeclares⟩ := Option.any_eq_true _ _ |>.mp h
  obtain ⟨lib, hlib, hlock⟩ := Option.bind_eq_some_iff.mp hlock
  simp only [Bool.and_eq_true, decide_eq_true_eq, List.contains_iff_mem] at hdeclares
  obtain ⟨⟨⟨⟨-, hphase⟩, hattempt⟩, howner⟩, hmember⟩ := hdeclares
  have hsees := hworld lib hlib
  cases hl : libs other with
  | absent => exact absurd hl hsees.not_absent
  | moved m =>
    -- a retired household's lock is not open
    rw [(hsees.moved hl).1] at hlock
    cases m with
    | bare => cases hlock
    | exclusive =>
      cases hlock
      cases hphase
  | stored v =>
    rw [(hsees.stored hl).1] at hlock
    obtain ⟨house, swept, hreset, rfl⟩ := (hok.vaults _ _ hl).lock hlock
    have hrole : house.role = .household := by
      by_contra hrole
      -- a profile's lock has no owner of its own
      simp only [Record.model, if_neg hrole] at howner
      rw [← howner] at hvalid
      exact absurd hvalid (by decide)
    refine ⟨house, hreset, hrole, hphase, hattempt, ?_, hmember⟩
    simpa [Record.model, hrole] using howner

/-- The library of an acquire as its world sees it, where no other peer is that library. -/
theorem world_self (hex : Hash → String) (hreset : v.reset = some record) (hpost : postHousehold p = some other)
    (hv : libs p.id = .stored v) (hself : other ≠ p.id) (hsuccessor : p.proof.isSome → record.successor ≠ p.id) :
    ∃ lib, buildWorld hex libs p.id true (postPeers p v) noWorld p.id = some lib ∧ lib.lock = v.lock ∧
      lib.source = v.source ∧ lib.retired = false ∧
      lib.role = if 5 ≤ v.wireMin then .household else .profile := by
  have hafter : p.id ∉ ((other, some LibRole.household) ::
      (if p.proof.isSome then [(record.successor, some .successor)] else [])).map Prod.fst := by
    by_cases hp : p.proof.isSome
    · simp [hp, hself.symm, (hsuccessor hp).symm]
    · simp [hp, hself.symm]
  have hlast : buildWorld hex libs p.id true ([] ++ (p.id, none) :: _) noWorld p.id =
      view hex (libs p.id) none (true && p.id = p.id) := buildWorld_last (by rw [hv]; simp) hafter
  rw [hv] at hlast
  rw [postPeers_profile hreset hpost]
  exact ⟨_, hlast, rfl, by simp, rfl, rfl⟩

/-- A new lock over another attempt's was declared by another household. -/
theorem PostDecides.poaches (hok : LibsOK libs) {lib : Lib} {pre : Option (List String)}
    (hforce : InForce libs p.id attempt household record) (hacquire : p.body.purpose = PURPOSE)
    (h : PostDecides hex libs p v lib (.opens pre)) (hrole : p.body.role = .profile) :
    Poaches libs p household record := by
  obtain ⟨hv, htoken, hwire, hrequired⟩ := targetStore_ok h.target
  have hreset := hforce.reset_stored hv
  obtain ⟨other, hpost⟩ := Option.ne_none_iff_exists'.mp (h.named hacquire hrole)
  obtain ⟨hnamed, hhex⟩ := postHousehold_some hpost
  have hpeers := postPeers_profile hreset hpost
  obtain ⟨-, presenter, role, expected, hopens⟩ := acquireOrTakeover_opens h.decided
  obtain rfl : p.body.attempt = presenter := Option.some.inj hopens.attempt
  obtain rfl : p.body.role = role := Option.some.inj hopens.asRole
  obtain rfl : p.body.expectedSource = expected := Option.some.inj hopens.source
  -- the household of the lock is not looked at
  have hunseen : household ∉ (postPeers p v).map Prod.fst := by
    intro hmem
    have hfree := hopens.free
    rw [h.locked, (hok.vaults _ _ hv).lock_live hreset (by rw [hforce.phase]; rfl)] at hfree
    have hnone := household_unseen hok hforce (fun _ hl => buildWorld_noWorld hl) hfree
    obtain ⟨house, hhouse, -⟩ := hforce.house
    obtain ⟨hv', hstored, -⟩ := Library.reset_eq_some hhouse
    have hsome : (buildWorld hex libs p.id true (postPeers p v) noWorld household).isSome :=
      buildWorld_isSome (by rw [hstored]; simp) (.inl hmem)
    rw [hnone] at hsome
    cases hsome
  obtain ⟨house, hhouse, hhouseRole, hdeclares⟩ := declaredBy_house hok hnamed hopens.valid
    (fun _ hl => buildWorld_noWorld hl) (hopens.declared hrole)
  have hself := hforce.ne_house hhouse hhouseRole
  have hkind := hopens.kind
  have hcurrent := hopens.current
  have hseen := h.seen
  -- the successor the proof is for is seen as a successor, so it is not the library itself
  have hsuccessor : p.proof.isSome → record.successor ≠ p.id := by
    intro hp heq
    have hlast :
        buildWorld hex libs p.id true ([(p.id, none), (other, some .household)] ++ [(p.id, some .successor)])
        noWorld p.id = view hex (libs p.id) (some .successor) (true && p.id = p.id) :=
      buildWorld_last (by rw [hv]; simp) (by simp)
    rw [hpeers, if_pos hp, heq] at hseen
    rw [hv] at hlast
    cases hseen.symm.trans hlast
    cases hr : p.body.role <;> rw [hr] at hkind <;> cases hkind
  obtain ⟨lib', hlib', -, hsource, -, hlibRole⟩ := world_self hex hreset hpost hv hself hsuccessor
  rw [hpeers] at hunseen
  rw [hseen] at hlib'
  cases hlib'
  have hmin : v.wireMin = 4 := by
    unfold requiredWire at hrequired
    rw [hrole, hlibRole] at hkind
    by_cases h5 : 5 ≤ v.wireMin
    · rw [if_pos h5] at hkind
      cases hkind
    · by_cases h3 : v.wireMin ≤ 3
      · rw [if_pos h3] at hrequired
        cases hrequired
      · omega
  have hdeclaration := hopens.declaration
  unfold checkDeclaration at hdeclaration
  rw [if_neg (by simp [postReq, hacquire])] at hdeclaration
  split at hdeclaration
  · cases hdeclaration
  rename_i hsucc
  rw [hrole] at hdeclaration
  simp only at hdeclaration
  split at hdeclaration
  · rename_i hlibrary
    refine ⟨hrole, h.attempt, hopens.sourceOK, not_not.mp hsucc, h.proof, fun hp => ⟨?_, hsuccessor hp⟩,
      ⟨v, hv, hmin, by rw [hwire, hmin]; rfl, htoken, h.new, hsource ▸ hcurrent⟩,
      ⟨other, house, hnamed, ?_, hhex, ?_, hhouse, hhouseRole, hdeclares⟩⟩
    · rintro rfl
      exact hunseen (by simp [hp])
    · rintro rfl
      exact hunseen (by simp)
    · have hlibrary : p.body.household.any validId32OrLibrary = true := hlibrary
      rw [hnamed] at hlibrary
      exact hlibrary
  · cases hdeclaration

/-- The store of a request that is in order. -/
theorem targetStore_profile {id : String} {token : Hash} {wire : Option ℕ} (hv : libs id = .stored v)
    (hmin : v.wireMin = 4) (hwire : wire = some 4) (htoken : v.token = token) :
    targetStore libs id token wire = .ok v := by
  unfold targetStore
  rw [hv]
  simp [hmin, requiredWire, hwire, htoken]

/-- An acquire another household declared is decided as a new lock. -/
theorem Poaches.opens (hex : Hash → String) (hok : LibsOK libs)
    (hforce : InForce libs p.id attempt household record) (hacquire : p.body.purpose = PURPOSE)
    (hother : p.body.attempt ≠ attempt) (h : Poaches libs p household record) (hv : libs p.id = .stored v)
    (hmin : v.wireMin = 4) (hcurrent : v.source = p.body.expectedSource) :
    ∃ pre, step (buildWorld hex libs p.id true (postPeers p v) noWorld) (postReq hex p true) =
      .ok (.opens pre) := by
  obtain ⟨other, house, hnamed, hne, hhex, hlibrary, hhouse, hrole, hphase, hattempt, howner, hmember⟩ := h.other
  have hreset := hforce.reset_stored hv
  have hpost : postHousehold p = some other := by simp [postHousehold, hacquire, h.role, hnamed, hhex]
  have hpeers := postPeers_profile hreset hpost
  obtain ⟨lib, hseen, hlibLock, hsource, hretired, hlibRole⟩ :=
    world_self hex hreset hpost hv (hforce.ne_house hhouse hrole) fun hp => (h.unseen hp).2
  have hlock := (hok.vaults _ _ hv).lock_live hreset (by rw [hforce.phase]; rfl)
  -- the world of the request lacks the lock's household, so the lock is not seen to be held
  have hunseen : buildWorld hex libs p.id true (postPeers p v) noWorld household = none := by
    obtain ⟨mine, hmine, hmineRole, -⟩ := hforce.house
    have hid := hforce.ne_house hmine hmineRole
    rw [hpeers, buildWorld_of_notMem]
    · rfl
    · by_cases hp : p.proof.isSome
      · simp [hp, hid, hne.symm, (h.unseen hp).1.symm]
      · simp [hp, hid, hne.symm]
  have hdeclared : declaredBy (buildWorld hex libs p.id true (postPeers p v) noWorld) (postReq hex p true)
      p.body.attempt = true := by
    obtain ⟨hov, hstored, horeset⟩ := Library.reset_eq_some hhouse
    obtain ⟨lib, hlib, hl, -⟩ := world_target hex p.id true (postPeers p v) hstored (by simp [hpeers])
    rw [(hok.vaults _ _ hstored).lock_live horeset (by rw [hphase]; rfl)] at hl
    unfold declaredBy
    have hhousehold : (postReq hex p true).household = some other := hnamed
    rw [hhousehold, Option.bind_some, hlib, Option.bind_some, hl]
    simp [Record.model, hphase, hattempt, howner, hrole, postReq, hmember]
  rw [step_acquireOrTakeover hseen (.inl (by simp [postReq]))]
  have hasked : Asked (postReq hex p true) lib p.body.attempt .profile p.body.expectedSource := by
    refine ⟨rfl, h.attempt, by simp [postReq, h.role], rfl, h.source, by simp [postReq, hacquire, wantPurpose],
      by simp [checkDeclaration, postReq, h.successor, hnamed, hlibrary], ?_⟩
    simp [hlibLock, hlock, repeated, Record.model, postReq, hforce.ofAttempt, hother.symm]
  rw [acquireOrTakeover_acquire hasked (by simp [postReq])]
  refine (acquireDecision_opens_iff hasked).mpr
    ⟨hasked, hretired, ?_, ?_, fun _ => hdeclared, hsource.trans hcurrent⟩
  · simp [hlibLock, hlock, held, heldLock, Record.model, hforce.role, householdLock, hforce.ofHousehold, hunseen]
  · simp [hlibRole, hmin, LibRole.is]

/-- The commit of a member's lock expects nothing of the key. -/
theorem openMember_ok (v : Vault) (p : Post) : ∃ v', openMember v p = .ok v' ∧ v'.key = some p.body.attempt := by
  unfold openMember Vault.commit
  simp only [openEdit, Edit.new, newRecord, Vault.fence, Option.any_some, Option.any_none, ne_eq,
    not_true_eq_false, decide_false, Bool.false_eq_true, LockExpect.admits, or_self, if_false]
  exact ⟨_, rfl, rfl⟩

/-- An acquire another household declared is granted over the lock in force. -/
theorem Poaches.granted (hex : Hash → String) (hok : LibsOK libs)
    (hforce : InForce libs p.id attempt household record) (hacquire : p.body.purpose = PURPOSE)
    (hother : p.body.attempt ≠ attempt) (h : Poaches libs p household record) :
    ((post hex libs p).1 p.id).key = some p.body.attempt := by
  obtain ⟨v, hv, hmin, hwire, htoken, hnew, hcurrent⟩ := h.store
  obtain ⟨other, house, hnamed, -, hhex, -⟩ := h.other
  obtain ⟨pre, hopens⟩ := h.opens hex hok hforce hacquire hother hv hmin hcurrent
  have hpost : postHousehold p = some other := by simp [postHousehold, hacquire, h.role, hnamed, hhex]
  have hreset := hforce.reset_stored hv
  obtain ⟨v', hcommit, hkey⟩ := openMember_ok v p
  have hresult : post hex libs p =
      (Function.update libs p.id (.stored v'), .granted (.opened p.body.attempt false)) := by
    unfold post
    rw [if_neg h.proof, if_neg (fun hp => hp.1 hacquire), if_neg (not_not.mpr h.attempt)]
    rw [if_neg (by simp [hpost]), targetStore_profile hv hmin hwire htoken]
    dsimp only
    rw [hnew]
    rw [if_neg (by simp [hreset])]
    simp only [hacquire, decide_true, hopens]
    simp only [performPost, h.role, hcommit, commitAt]
  rw [hresult]
  simp [Library.key, Library.vault, hkey]

/-- A household's acquire expects the key to be free. -/
theorem performPost_household (libs : Libraries) (pre : Option (List String)) (hrole : p.body.role = .household)
    {key : String} (hkey : v.key = some key) :
    (performPost libs p v (.opens pre)).1 = libs ∧ (performPost libs p v (.opens pre)).2.turnsAway = true := by
  simp only [performPost, hrole]
  have herror : openHousehold libs v p = .error .locked := by
    simp [openHousehold, Vault.commit, openEdit, Edit.new, newRecord, Vault.fence, LockExpect.admits, hkey]
  rw [herror]
  exact ⟨rfl, rfl⟩

/-- **Which acquires a member's lock in force turns away.** In every state the machine reaches, an acquire by
another attempt leaves the lock as it is and is turned away, unless a second household's open reset of that
attempt declares the library and the request names that household. -/
theorem member_lock_exclusive_iff (hex : Hash → String) (es : List Event) (p : Post) (attempt household : String)
    (record : Record) (libs : Libraries) (hreached : (Run.exec (Server.step hex) Server.empty es).libs = libs)
    (hforce : InForce libs p.id attempt household record) (hacquire : p.body.purpose = PURPOSE)
    (hother : p.body.attempt ≠ attempt) :
    (((post hex libs p).1 p.id).key = (libs p.id).key ∧ ((post hex libs p).1 p.id).reset = (libs p.id).reset ∧
        (post hex libs p).2.turnsAway = true) ↔
      ¬ Poaches libs p household record := by
  have hok : LibsOK libs := hreached ▸ (run_serverOK hex es).libs
  constructor
  · rintro ⟨hkey, -, -⟩ hpoaches
    rw [hpoaches.granted hex hok hforce hacquire hother, hforce.key] at hkey
    exact hother (Option.some.inj hkey)
  · intro hnot
    rcases post_acquire hex hok hforce hother with ⟨hlibs, haway⟩ | ⟨v, lib, pre, hopens⟩
    · exact ⟨by rw [hlibs], by rw [hlibs], haway⟩
    · cases hrole : p.body.role with
      | household =>
        have hkey : v.key = some attempt := by
          have hkey := hforce.key
          rw [(targetStore_ok hopens.target).1] at hkey
          exact hkey
        obtain ⟨hlibs, haway⟩ := performPost_household libs pre hrole hkey
        rw [hopens.result]
        exact ⟨by rw [hlibs], by rw [hlibs], haway⟩
      | profile => exact absurd (hopens.poaches hok hforce hacquire hrole) hnot

/-! Two households that both declare one profile library. -/

def otherHouseholdId : String := "eeeeeeeeeeeeeeee"
def attemptB : String := "b000000000000000000000000000000b"

/-- The first household's reset has locked the profile; the second's is open. -/
def sampleContest : List Event :=
  [firstWrite householdId 5, firstWrite profileId 4, firstWrite otherHouseholdId 5,
    acquireHousehold householdId attemptA newHouseholdId [⟨profileId, newProfileId⟩],
    .post (acquireProfile profileId attemptA newProfileId householdId),
    acquireHousehold otherHouseholdId attemptB "ffffffffffffffff" [⟨profileId, "0000000000000000"⟩]]

def sampleMemberRecord : Record :=
  ⟨attemptA, attemptA, .profile, .opened, "lock", 4, ⟨0, 1, sampleDigest⟩, newProfileId, [],
    some householdId, true, [], []⟩

def sampleHouseRecord : Record :=
  ⟨attemptA, attemptA, .household, .opened, "lock", 5, ⟨0, 1, sampleDigest⟩, newHouseholdId,
    [⟨profileId, newProfileId⟩], none, true, [], []⟩

theorem sampleContest_inForce :
    InForce (Run.exec (Server.step showHash) Server.empty sampleContest).libs profileId attemptA householdId
      sampleMemberRecord :=
  ⟨by decide +kernel, by decide +kernel, rfl, rfl, rfl, rfl, sampleHouseRecord, by decide +kernel, rfl, rfl, rfl⟩

/-- The second household's attempt on the profile, naming a household. -/
def sampleRival (household : String) : Post := acquireProfile profileId attemptB "0000000000000000" household

/-- The second household's attempt replaces the lock of the first, whose reset is still open. -/
theorem second_household_takes_member :
    ∃ libs, (Run.exec (Server.step showHash) Server.empty sampleContest).libs = libs ∧
      InForce libs profileId attemptA householdId sampleMemberRecord ∧
      ((post showHash libs (sampleRival otherHouseholdId)).1 profileId).key = some attemptB ∧
      (post showHash libs (sampleRival otherHouseholdId)).2 = .granted (.opened attemptB false) :=
  ⟨_, rfl, sampleContest_inForce, by decide +kernel, by decide +kernel⟩

/-- The same attempt is turned away where it names the lock's own household. -/
theorem member_lock_exclusive_sample :
    ∃ libs p, (Run.exec (Server.step showHash) Server.empty sampleContest).libs = libs ∧
      p = sampleRival householdId ∧ InForce libs p.id attemptA householdId sampleMemberRecord ∧
      (((post showHash libs p).1 p.id).key = (libs p.id).key ∧
        ((post showHash libs p).1 p.id).reset = (libs p.id).reset ∧
        (post showHash libs p).2.turnsAway = true) := by
  refine ⟨_, _, rfl, rfl, sampleContest_inForce, ?_⟩
  refine (member_lock_exclusive_iff showHash sampleContest (sampleRival householdId) attemptA householdId
    sampleMemberRecord _ rfl sampleContest_inForce rfl (by decide)).mpr fun hpoaches => ?_
  obtain ⟨other, house, hnamed, hne, -⟩ := hpoaches.other
  exact hne (Option.some.inj hnamed).symm

end DenEdge.Reset
