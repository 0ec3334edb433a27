import DenEdge.Reset.Decisions
import DenEdge.Reset.Machine

/-!
# What one commit can do to a library

Every event of the machine is a sequence of commits on single libraries. `VaultStep` says once what a commit can
do to the lock and the records of a store, `LibStep` what it can do to the libraries; each handler is shown to do
nothing else, and every invariant is then a fact about these steps alone.
-/

namespace DenEdge.Reset

variable {hex : Hash → String} {libs : Libraries}

/-! ## Commits of one store -/

variable {v v' : Vault} {a : String}

theorem Vault.commit_ok {edit : Edit} (h : v.commit edit = .ok v') :
    edit.expectLock.admits v.key = true ∧
      v' = { v with
        key := edit.lock.apply v.key
        reset := edit.putReset <|> v.reset
        sweep := edit.putSweep.getD v.sweep
        entries := edit.putEntries.foldl putEntry v.entries } := by
  unfold Vault.commit at h
  split at h
  · cases h
  split at h
  · cases h
  rename_i hlock
  split at h
  · cases h
  cases h
  exact ⟨by simpa using hlock, rfl⟩

variable {puts : List (String × Entry)} {entries : String → Option Entry} {e : Entry}

/-- Entries are added and changed, never removed. -/
theorem foldl_putEntry_isSome (h : (entries a).isSome) :
    (puts.foldl putEntry entries a).isSome := by
  refine List.foldlRecOn (motive := fun entries => (entries a).isSome = true) puts putEntry h
    fun entries h put _ => ?_
  unfold putEntry
  by_cases ha : a = put.1
  · subst ha
    rw [Function.update_self]
    rfl
  · rw [Function.update_of_ne ha]
    exact h

theorem foldl_putEntry_mem (h : (a, e) ∈ puts) : (puts.foldl putEntry entries a).isSome := by
  induction puts generalizing entries with
  | nil => cases h
  | cons _ _ ih =>
    rw [List.foldl_cons]
    rcases List.mem_cons.mp h with rfl | hmem
    · refine foldl_putEntry_isSome ?_
      unfold putEntry
      rw [Function.update_self]
      rfl
    · exact ih hmem

/-- An entry after some were put is the last one put for its attempt, or the one that was there. -/
theorem foldl_putEntry_some
    (h : puts.foldl putEntry entries a = some e) :
    (a, e) ∈ puts ∨ (entries a = some e ∧ ∀ e', (a, e') ∉ puts) := by
  induction puts generalizing entries with
  | nil => exact .inr ⟨h, fun _ => List.not_mem_nil⟩
  | cons put puts ih =>
    rcases ih h with hmem | ⟨hput, hnot⟩
    · exact .inl (List.mem_cons_of_mem _ hmem)
    · unfold putEntry at hput
      by_cases ha : a = put.1
      · subst ha
        rw [Function.update_self] at hput
        cases hput
        exact .inl List.mem_cons_self
      · rw [Function.update_of_ne ha] at hput
        refine .inr ⟨hput, fun e' hmem => ?_⟩
        rcases List.mem_cons.mp hmem with rfl | hmem
        · exact ha rfl
        · exact hnot e' hmem

/-- An active entry of a household's reset is of its owner, and the reset is live. -/
def ActiveOK (v : Vault) : Prop :=
  ∀ a e, v.entries a = some e → e.state = .active → e.role = .household →
    ∃ r, v.reset = some r ∧ r.role = .household ∧ r.owner = a ∧ r.phase.live = true

/-- The successor libraries a reset declares: the household's and its members'. -/
def Record.declared (record : Record) : List String := record.successor :: record.members.map Member.successor

def AcquireBody.declared (body : AcquireBody) : List String :=
  body.successor.getD "" :: (body.members.getD []).map Member.successor

/-- The event is an acquire of a household's lock, with what its record declares. -/
def Event.Opens (e : Event) (id : String) (r : Record) : Prop :=
  ∃ p, e = .post p ∧ p.id = id ∧ p.body.role = .household ∧ p.body.purpose = PURPOSE ∧
    r.declared = p.body.declared

/-- The event is an abort, or a recovery without a proof, which ends the reset. -/
def Event.EndsReset (e : Event) (id : String) : Prop :=
  (∃ r, e = .abort r ∧ r.id = id) ∨ ∃ p, e = .post p ∧ p.id = id ∧ p.body.purpose ≠ PURPOSE ∧ p.proof = none

/-- What a commit of an event does to the lock and the records. -/
inductive VaultStep (s : Server) (e : Event) (id : String) (v v' : Vault) : Prop where
  /-- A new lock, of an attempt never seen here, where no household's lock is in force. -/
  | opened (r : Record) (hevent : r.role = .household → e.Opens id r) (hnew : v.entries r.attempt = none)
      (hfree : ∀ old, v.reset = some old → old.role = .household → old.phase.live = false)
      (howner : r.owner = r.attempt) (hphase : r.phase = .opened) (hfence : r.fence = v'.fence)
      (hkey : v'.key = some r.attempt) (hreset : v'.reset = some r) (hsweep : v'.sweep = v.sweep)
      (hentry : (v'.entries r.attempt).isSome)
  /-- A household's lock moves on: to another owner, from open to committed, or through the retirement door. -/
  | carried (r : Record) (owner : String) (proven : Bool) (chain : List Link) (phase : Phase)
      (hold : v.reset = some r) (hlive : r.phase.live = true) (hlive' : phase.live = true)
      (hretiring : r.phase = .retiring → phase = .retiring)
      (hkey : v'.key = some owner ∨ (v'.key = v.key ∧ owner = r.owner))
      (hreset : v'.reset = some { r with owner := owner, proven := proven, chain := chain, phase := phase })
      (hsweep : v'.sweep = v.sweep) (hfence : v'.fence = v.fence)
  /-- A household decides against its reset. -/
  | ended (r r' : Record) (hevent : e.EndsReset id) (hold : v.reset = some r)
      (hphase : r.phase = .opened ∨ r.phase = .committed) (hkey : v'.key = none) (hreset : v'.reset = some r')
      (hattempt : r'.attempt = r.attempt) (hended : r'.phase = .aborted) (hsweep : v'.sweep = some r.owed)
  /-- A voided member lock is cleared. -/
  | cleared (r r' : Record) (hold : v.reset = some r) (hrole : r.role = .profile) (hkey : v'.key = none)
      (hreset : v'.reset = some r') (hattempt : r'.attempt = r.attempt) (hended : r'.phase = .aborted)
      (hsweep : v'.sweep = v.sweep)
  /-- A sweep is through its list, and the list is still the household's. -/
  | swept (task : SweepTask) (htask : task ∈ s.sweeps) (hhousehold : task.household = id)
      (hdone : task.successors = []) (howed : v.sweep = some task.owed) (hsweep : v' = { v with sweep := none })
  /-- An ordinary write. -/
  | written (hfree : v.key = none) (hkey : v'.key = none) (hreset : v'.reset = v.reset)
    (hsweep : v'.sweep = v.sweep)

/-- Every commit keeps the entries of attempts, only the owner's active, and the token. -/
structure Commit (s : Server) (e : Event) (id : String) (v v' : Vault) : Prop where
  step : VaultStep s e id v v'
  entries : ∀ a, (v.entries a).isSome → (v'.entries a).isSome
  active : ActiveOK v → ActiveOK v'
  token : v'.token = v.token

/-- What one commit, or one file replace, does to the libraries. -/
inductive LibStep (libs : Libraries) : Libraries → Prop where
  | committed (s : Server) (e : Event) (id : String) (v v' : Vault) (hv : libs id = .stored v)
      (h : Commit s e id v v') : LibStep libs (Function.update libs id (.stored v'))
  | created (id : String) (token : Hash) (change : Change) (hv : libs id = .absent) :
      LibStep libs (Function.update libs id (.stored (newVault token change)))
  /-- A retirement outside a reset, or by a sweep. -/
  | deleted (id successor : String) (v : Vault) (hv : libs id = .stored v) :
      LibStep libs (Function.update libs id (.moved (.bare successor)))
  /-- A retirement under a reset: a member's only once its household is retiring. -/
  | retired (id successor : String) (v : Vault) (r : Record) (t : Tombstone) (hv : libs id = .stored v)
      (hr : v.reset = some r) (hacquired : t.acquired = r.attempt) (hrole : t.role = r.role)
      (hhousehold : t.household = r.household)
      (hdecided : r.role = .profile → ∃ household house record, r.household = some household ∧
        libs household = .stored house ∧ house.reset = some record ∧ record.role = .household ∧
        record.attempt = r.attempt ∧ record.phase = .retiring) :
      LibStep libs (Function.update libs id (.moved (.exclusive successor t)))

/-! ## The edits -/

variable {s : Server} {event : Event} {id : String} {record : Record}

theorem openEdit_commit {expectLock : LockExpect} {body : AcquireBody}
    (hevent : record.role = .household → event.Opens id record) (hnew : v.entries record.attempt = none)
    (hfree : ∀ old, v.reset = some old → old.role = .household → old.phase.live = false)
    (howner : record.owner = record.attempt) (hphase : record.phase = .opened) (hfence : record.fence = v.fence)
    (h : v.commit (openEdit expectLock v record body) = .ok v') : Commit s event id v v' := by
  obtain ⟨-, rfl⟩ := Vault.commit_ok h
  refine ⟨.opened record hevent hnew hfree howner hphase hfence rfl rfl rfl ?_,
    fun a ha => foldl_putEntry_isSome ha, ?_, rfl⟩
  · exact foldl_putEntry_mem (List.mem_singleton.mpr rfl)
  · intro hactive a e he hstate hrole
    rcases foldl_putEntry_some he with hput | ⟨hold, -⟩
    · obtain ⟨rfl, rfl⟩ := Prod.mk.inj (List.mem_singleton.mp hput)
      exact ⟨record, rfl, hrole, howner, by rw [hphase]; rfl⟩
    · obtain ⟨old, hreset, hhouse, -, hlive⟩ := hactive a e hold hstate hrole
      rw [hfree old hreset hhouse] at hlive
      cases hlive

section

variable (hold : v.reset = some record)
include hold

theorem takeover_commit {p : Post} {proven : Bool} (hhouse : record.role = .household)
    (hlive : record.phase.live = true) (h : takeover v p proven = .ok v') : Commit s event id v v' := by
  unfold takeover at h
  rw [hold] at h
  obtain ⟨-, rfl⟩ := Vault.commit_ok h
  refine ⟨.carried record _ _ _ _ hold hlive hlive (fun hp => hp) (.inl rfl) rfl rfl rfl,
    fun a ha => foldl_putEntry_isSome ha, ?_, rfl⟩
  intro hactive a e he hstate hrole
  rcases foldl_putEntry_some he with hput | ⟨hkept, hnot⟩
  · rcases List.mem_append.mp hput with hput | hput
    · obtain ⟨old, -, heq⟩ := Option.map_eq_some_iff.mp (Option.mem_toList.mp hput)
      cases heq
      cases hstate
    · obtain ⟨rfl, -⟩ := Prod.mk.inj (List.mem_singleton.mp hput)
      exact ⟨_, rfl, hhouse, rfl, hlive⟩
  · -- the owner's entry was put, so an entry that was kept is not the owner's
    obtain ⟨r, hr, -, rfl, -⟩ := hactive a e hkept hstate hrole
    rw [hold] at hr
    cases hr
    refine absurd ?_ (hnot { e with state := .recovered, by' := some p.body.attempt })
    rw [hkept]
    exact List.mem_append_left _ (List.mem_singleton.mpr rfl)

omit hold in
/-- Ending a reset leaves no entry it puts active. -/
theorem endEdit_puts_ended {by' : Option (String × Source)} (h : (a, e) ∈ (endEdit v record by').putEntries) :
    e.state ≠ .active := by
  unfold endEdit at h
  rcases List.mem_append.mp h with h | h
  · rcases List.mem_append.mp h with h | h
    · obtain ⟨old, -, heq⟩ := Option.map_eq_some_iff.mp (Option.mem_toList.mp h)
      cases heq
      unfold endedOwner
      cases by' with
      | some => simp
      | none => cases old.kind <;> simp
    · obtain ⟨old, -, heq⟩ := Option.map_eq_some_iff.mp (Option.mem_toList.mp h)
      cases heq
      simp [finishedEntry]
  · obtain ⟨link, -, hlink⟩ := List.mem_filterMap.mp h
    obtain ⟨old, -, heq⟩ := Option.map_eq_some_iff.mp hlink
    cases heq
    simp

theorem endReset_commit {by' : Option (String × Source)} (hevent : event.EndsReset id)
    (hphase : record.phase = .opened ∨ record.phase = .committed) (h : endReset v by' = .ok v') :
    Commit s event id v v' := by
  unfold endReset at h
  rw [hold] at h
  obtain ⟨-, rfl⟩ := Vault.commit_ok h
  refine ⟨.ended record _ hevent hold hphase rfl rfl rfl rfl rfl, fun a ha => foldl_putEntry_isSome ha, ?_, rfl⟩
  intro hactive a e he hstate hrole
  rcases foldl_putEntry_some he with hput | ⟨hkept, hnot⟩
  · exact absurd hstate (endEdit_puts_ended hput)
  · obtain ⟨r, hr, -, rfl, -⟩ := hactive a e hkept hstate hrole
    rw [hold] at hr
    cases hr
    refine absurd ?_ (hnot (endedOwner by' e))
    unfold endEdit
    rw [hkept]
    exact List.mem_append_left _ (List.mem_append_left _ (List.mem_singleton.mpr rfl))

omit hold in
/-- A record that moves on with its owner keeps the owner's entry active. -/
theorem ActiveOK.advanced {r r' : Record} (hold : v.reset = some r) (hreset : v'.reset = some r')
    (hrole : r'.role = r.role) (howner : r'.owner = r.owner) (hlive : r'.phase.live = true)
    (hentries : v'.entries = v.entries) : ActiveOK v → ActiveOK v' := by
  intro hactive a e he hstate hhouse
  rw [hentries] at he
  obtain ⟨r₀, hr₀, hr, ho, -⟩ := hactive a e he hstate hhouse
  rw [hold] at hr₀
  cases hr₀
  exact ⟨r', hreset, hrole.trans hr, howner.trans ho, hlive⟩

theorem commitSuccessor_commit (hphase : record.phase = .opened) (h : commitSuccessor v = .ok v') :
    Commit s event id v v' := by
  unfold commitSuccessor at h
  rw [hold] at h
  obtain ⟨-, rfl⟩ := Vault.commit_ok h
  refine ⟨.carried record _ _ _ _ hold (by rw [hphase]; rfl) rfl (fun hp => ?_) (.inr ⟨rfl, rfl⟩) rfl rfl rfl,
    fun a ha => ha, ActiveOK.advanced hold rfl rfl rfl rfl rfl, rfl⟩
  rw [hphase] at hp
  cases hp

theorem openDoor_commit (h : openDoor v = .ok v') :
    Commit s event id v v' ∧ v'.reset = some { record with phase := .retiring } := by
  unfold openDoor at h
  rw [hold] at h
  simp only at h
  split at h
  · cases h
  rename_i hphase
  obtain ⟨-, rfl⟩ := Vault.commit_ok h
  exact ⟨⟨.carried record _ _ _ _ hold (by rw [not_not.mp hphase]; rfl) rfl (fun _ => rfl)
    (.inr ⟨rfl, rfl⟩) rfl rfl rfl, fun a ha => ha, ActiveOK.advanced hold rfl rfl rfl rfl rfl, rfl⟩, rfl⟩

/-- A void lock is cleared by itself, or by the write that finds it. -/
theorem clearVoid_commit {cleared : Vault} (hrole : record.role = .profile) (h : clearVoid v record = .ok cleared)
    (hv' : v' = cleared ∨ ∃ change : Change, v' = change.apply cleared) : Commit s event id v v' := by
  unfold clearVoid at h
  obtain ⟨-, hcleared⟩ := Vault.commit_ok h
  have hactive : ActiveOK v → ActiveOK cleared := by
    subst hcleared
    intro hactive a e he hstate hhouse
    rcases foldl_putEntry_some he with hput | ⟨hkept, -⟩
    · obtain ⟨old, -, heq⟩ := Option.map_eq_some_iff.mp (Option.mem_toList.mp hput)
      cases heq
      cases hstate
    · obtain ⟨r, hr, hr', -⟩ := hactive a e hkept hstate hhouse
      cases hold.symm.trans hr
      cases hrole.symm.trans hr'
  subst hcleared
  rcases hv' with heq | ⟨change, heq⟩ <;> subst heq <;>
    exact ⟨.cleared record _ hold hrole rfl rfl rfl rfl rfl, fun a ha => foldl_putEntry_isSome ha, hactive, rfl⟩

end

/-! ## What a request sees -/

/-- A library of the world is a view of the library stored under its id. -/
def Sees (hex : Hash → String) (libs : Libraries) (id : String) (lib : Lib) : Prop :=
  ∃ role wantSource, view hex (libs id) role wantSource = some lib

variable {target : String} {lib : Lib} {peers : List (String × Option LibRole)} {want : Bool} {world : World}

theorem Sees.stored (h : Sees hex libs id lib) (hv : libs id = .stored v) :
    lib.lock = v.lock ∧ lib.retired = false := by
  obtain ⟨role, want, h⟩ := h
  rw [hv] at h
  cases h
  exact ⟨rfl, rfl⟩

theorem Sees.moved {m : Marker} (h : Sees hex libs id lib) (hm : libs id = .moved m) :
    lib.lock = markerLock m ∧ lib.retired = true := by
  obtain ⟨role, want, h⟩ := h
  rw [hm] at h
  cases h
  exact ⟨rfl, rfl⟩

theorem Sees.not_absent (h : Sees hex libs id lib) : libs id ≠ .absent := by
  obtain ⟨role, want, h⟩ := h
  intro ha
  rw [ha] at h
  cases h

theorem buildWorld_sees (hworld : ∀ id lib, world id = some lib → Sees hex libs id lib)
    (h : buildWorld hex libs target want peers world id = some lib) : Sees hex libs id lib := by
  induction peers generalizing world with
  | nil => exact hworld id lib h
  | cons peer peers ih =>
    obtain ⟨peer, role⟩ := peer
    refine ih ?_ h
    intro i l hi
    unfold World.add at hi
    by_cases hip : i = peer
    · subst hip
      rw [Function.update_self] at hi
      cases hseen : view hex (libs i) role (want && i = target) with
      | none =>
        rw [hseen] at hi
        exact hworld i l hi
      | some =>
        rw [hseen] at hi
        cases hi
        exact ⟨role, _, hseen⟩
    · rw [Function.update_of_ne hip] at hi
      exact hworld i l hi

theorem buildWorld_of_notMem (h : id ∉ peers.map Prod.fst) :
    buildWorld hex libs target want peers world id = world id := by
  induction peers generalizing world with
  | nil => rfl
  | cons _ _ ih =>
    rw [List.map_cons, List.mem_cons, not_or] at h
    rw [buildWorld, ih h.2]
    exact Function.update_of_ne h.1 _ _

theorem buildWorld_append (peers peers' : List (String × Option LibRole)) (world : World) :
    buildWorld hex libs target want (peers ++ peers') world =
      buildWorld hex libs target want peers' (buildWorld hex libs target want peers world) := by
  induction peers generalizing world with
  | nil => rfl
  | cons _ _ ih => exact ih _

/-- A library is seen in the role of the last peer that names it. -/
theorem buildWorld_last {before after : List (String × Option LibRole)} {role : Option LibRole}
    (hlib : libs id ≠ .absent) (hafter : id ∉ after.map Prod.fst) :
    buildWorld hex libs target want (before ++ (id, role) :: after) world id =
      view hex (libs id) role (want && id = target) := by
  rw [buildWorld_append, buildWorld, buildWorld_of_notMem hafter]
  unfold World.add
  rw [Function.update_self]
  cases hl : libs id with
  | absent => exact absurd hl hlib
  | stored v => rfl
  | moved m => rfl

theorem buildWorld_isSome (hlib : libs id ≠ .absent) (h : id ∈ peers.map Prod.fst ∨ (world id).isSome) :
    (buildWorld hex libs target want peers world id).isSome := by
  induction peers generalizing world with
  | nil =>
    rcases h with h | h
    · cases h
    · exact h
  | cons peer peers ih =>
    obtain ⟨peer, role⟩ := peer
    refine ih ?_
    unfold World.add
    by_cases hip : id = peer
    · subst hip
      right
      cases hl : libs id with
      | absent => exact absurd hl hlib
      | stored v => simp [view]
      | moved m => simp [view]
    · rcases h with h | h
      · left
        rw [List.map_cons, List.mem_cons] at h
        exact h.resolve_left hip
      · right
        rwa [Function.update_of_ne hip]

/-- The world of a request sees the libraries as they are. -/
theorem buildWorld_noWorld (h : buildWorld hex libs target want peers noWorld id = some lib) :
    Sees hex libs id lib :=
  buildWorld_sees (fun _ _ hi => by cases hi) h

end DenEdge.Reset
