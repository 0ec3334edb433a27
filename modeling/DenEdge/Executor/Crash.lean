import DenEdge.Executor.Safety

/-!
# A compound key reset survives crashes

Every run of the executor's programs, one after another in a process that may die at any moment.
`reset_survives_crashes` is the result. A run in which den-edge ends the attempt while its locks are acquired
shows that a journal is erased also when nothing was adopted.
-/

namespace DenEdge.Executor

open Program

/-- What the page begins. -/
inductive Entry (core : Core) : Executing (Except Failure (Option Status)) → Prop where
  | start (input : StartInput) : Entry core (start core input)
  | resume : Entry core (resume core)
  | status : Entry core (status core)

/-! ## A run that is rolled back -/

/-- A planner that names the first step its evidence allows. -/
def firstStep (profiles : List Evidence) (householdCommitted oldHouseholdRetired : Bool) : ResetEffect :=
  match (profiles.filter fun p => !p.verified).map Evidence.profile with
  | profile :: rest => .moveLiveProfiles (profile :: rest)
  | [] =>
    if ¬ householdCommitted then .commitSuccessorHousehold
    else match (profiles.filter fun p => !p.oldRetired).map Evidence.profile with
      | profile :: rest => .retireOldLibraries (profile :: rest) false
      | [] => if ¬ oldHouseholdRetired then .retireOldLibraries [] true else .complete

theorem firstStep_allows (journal : Journal) :
    Allows journal (firstStep journal.profiles journal.householdCommitted journal.oldHouseholdRetired) := by
  have hmem : ∀ (test : Evidence → Bool) (profile : String),
      profile ∈ (journal.profiles.filter test).map Evidence.profile →
        ∃ evidence ∈ journal.profiles, evidence.profile = profile ∧ test evidence = true := by
    intro test profile h
    obtain ⟨evidence, hevidence, hprofile⟩ := List.mem_map.mp h
    obtain ⟨hevidence, htest⟩ := List.mem_filter.mp hevidence
    exact ⟨evidence, hevidence, hprofile, htest⟩
  have hnone : ∀ test : Evidence → Bool, (journal.profiles.filter test).map Evidence.profile = [] →
      ∀ evidence ∈ journal.profiles, test evidence = false := by
    intro test h evidence hevidence
    rw [List.map_eq_nil_iff, List.filter_eq_nil_iff] at h
    simpa using h evidence hevidence
  unfold firstStep
  split
  · rename_i profile rest hunverified
    obtain ⟨evidence, hevidence, hprofile, htest⟩ := hmem _ profile (hunverified ▸ List.mem_cons_self)
    exact ⟨profile, rfl, evidence, hevidence, hprofile, by simpa using htest⟩
  rename_i hverified
  by_cases hcommitted : journal.householdCommitted = true
  · rw [if_neg (not_not.mpr hcommitted)]
    split
    · rename_i profile rest hunretired
      refine ⟨hcommitted, fun p hp => ?_, (by simp), (by simp)⟩
      obtain ⟨evidence, hevidence, hprofile, htest⟩ := hmem _ p (hunretired ▸ hp)
      exact ⟨evidence, hevidence, hprofile, by simpa using htest⟩
    rename_i hretired
    by_cases hhousehold : journal.oldHouseholdRetired = true
    · rw [if_neg (not_not.mpr hhousehold)]
      refine allRetired_iff.mpr ⟨hcommitted, hhousehold, fun evidence hevidence => ?_⟩
      simpa using hnone _ hretired evidence hevidence
    · rw [if_pos hhousehold]
      exact ⟨hcommitted, (by simp), fun _ => (by simpa using hhousehold), fun _ => rfl⟩
  · rw [if_pos hcommitted]
    refine ⟨List.all_eq_true.mpr fun evidence hevidence => ?_, by simpa using hcommitted⟩
    simpa using hnone _ hverified evidence hevidence

/-- Every directory is checked and canonical, and a library's id is its key after a fixed device. -/
def samplePlanner : Planner where
  validateStored := some
  jcs directory := some directory.rest
  rotateLibrary directory profile version key at' :=
    some { directory with profiles := directory.profiles.map fun (id, entry) =>
      if id = profile then (id, { entry with key := key, keyVersion := version, library := at' })
      else (id, entry) }
  resetNext input := some (firstStep input.profiles input.householdCommitted input.oldHouseholdRetired)
  issue latest now device := some (max latest.1 now + 1, 0, device)
  libraryId key := "0123456789abcdef" ++ key
  canonical _ _ _ := rfl
  materializes _ _ _ := rfl
  names journal _ _ := ⟨_, rfl, firstStep_allows journal⟩

def sampleKey (c : Char) : String := String.ofList (List.replicate 42 c ++ ['A', '='])

/-- A household of one profile. -/
def sampleStart : StartInput where
  directory := ⟨[("child", ⟨"child", (1, 0, "0123456789abcdef"), sampleKey 'C', 1, (1, 0, "0123456789abcdef"),
    (1, 0, "0123456789abcdef"), false, (1, 0, "0123456789abcdef"), ""⟩)], ""⟩
  householdKey := sampleKey 'H'
  fence := ⟨1, String.ofList (List.replicate 64 'a')⟩
  successorHouseholdKey := some (sampleKey 'N')
  attempt := String.ofList (List.replicate 32 '0')
  draws n := some (sampleKey (if n = 0 then 'D' else 'E'))
  now := 5

variable {journal : Journal}

/-- What `start` does first. -/
theorem start_fresh {core : Core} {input : StartInput} (hnew : newJournal core input = .ok journal)
    (hvalid : validate core journal = true) : ∃ next next', start core input = .call .loadJournal next ∧
      next (.ok none) = .call (.persistJournal journal) next' ∧
      next' (.ok ()) = guarded core (drive core journal) := by
  simp only [start, hnew, hvalid]
  exact ⟨_, _, rfl, rfl, rfl⟩

/-- What `drive` does with a journal that has no locks, when den-edge ends the attempt. -/
theorem drive_rolledBack (core : Core) (hlocks : journal.locks = none)
    (hphase : journal.phase = .prepared) : ∃ next next',
      guarded core (drive core journal) = .call (.persistJournal journal) next ∧
      next (.ok ()) = .call (.acquireLocks (lockRequest core journal)) next' ∧
      next' (.error .rolledBack) = discard journal := by
  cases journal
  cases hlocks
  cases hphase
  exact ⟨_, _, rfl, rfl, rfl⟩

/-- **den-edge ends an attempt while its locks are acquired:** the run is about to erase the journal, and nothing
but the journal and the locks has been called. -/
theorem rolledBack_reaches {core : Core} {input : StartInput} (hnew : newJournal core input = .ok journal)
    (hvalid : validate core journal = true) :
    Machine.Reach Answers (Entry core) ⟨none, []⟩ ⟨⟨some journal,
      [⟨.acquireLocks (lockRequest core journal), .error .rolledBack⟩, ⟨.persistJournal journal, .ok ()⟩,
        ⟨.persistJournal journal, .ok ()⟩, ⟨.loadJournal, .ok none⟩]⟩, some (discard journal)⟩ := by
  obtain ⟨-, hlocks, hphase, -⟩ := newJournal_new hnew
  obtain ⟨next₁, next₂, hstart, hload, hpersist⟩ := start_fresh hnew hvalid
  obtain ⟨next₃, next₄, hdrive, hprepare, hacquire⟩ := drive_rolledBack core hlocks hphase
  have hbegun : Machine.Reach Answers (Entry core) ⟨none, []⟩ ⟨⟨none, []⟩, some (start core input)⟩ :=
    .tail .refl (.begins _ _ (.start input))
  have hloaded := hbegun.answered hstart (.loaded _) hload
  have hpersisted := hloaded.answered rfl (.persisted _ journal) hpersist
  have hprepared := hpersisted.answered hdrive (.persisted _ journal) hprepare
  exact hprepared.answered rfl (.failed _ _ _) hacquire

theorem sampleStart_valid : ∃ journal, newJournal samplePlanner.toCore sampleStart = .ok journal ∧
    validate samplePlanner.toCore journal = true := by
  have hany : (newJournal samplePlanner.toCore sampleStart).toOption.any
      (validate samplePlanner.toCore) = true := by
    decide +kernel
  cases hnew : newJournal samplePlanner.toCore sampleStart with
  | error =>
    rw [hnew] at hany
    cases hany
  | ok journal =>
    rw [hnew] at hany
    exact ⟨journal, rfl, hany⟩

/-! ## The result -/

theorem entry_keeps (planner : Planner) (p : Executing (Except Failure (Option Status))) (w : World)
    (hentry : Entry planner.toCore p) (hrecorded : Recorded planner.toCore w) :
    p.Keeps Answers (Allowed planner.toCore) (Recorded planner.toCore)
      (fun _ w => Recorded planner.toCore w) w := by
  cases hentry with
  | start input => exact start_keeps planner input hrecorded
  | resume => exact resume_keeps planner hrecorded
  | status => exact status_keeps hrecorded

/-- **A compound key reset survives crashes.** Wherever the process dies and whatever the backend answers or
loses: the journal that is stored passes its check, every call is made only when it is allowed, and what an
attempt was started with never changes. -/
theorem reset_survives_crashes (planner : Planner)
    {m : Machine World Call Call.Answer (Except Failure (Option Status))}
    (h : Machine.Reach Answers (Entry planner.toCore) ⟨none, []⟩ m) :
    (∀ stored, m.world.stored = some stored → validate planner.toCore stored = true) ∧
    (∀ c next, m.running = some (.call c next) → Allowed planner.toCore m.world c) ∧
    (∀ m', Machine.Step Answers (Entry planner.toCore) m m' → ∀ stored stored', m.world.stored = some stored →
      m'.world.stored = some stored' → stored'.prepared = stored.prepared) := by
  have hempty : Recorded planner.toCore ⟨none, []⟩ := by
    intro stored hs
    cases hs
  have hgood := Machine.reach_good (entry_keeps planner) hempty h
  refine ⟨fun stored hs => ?_, fun c next hc => hgood.allowed hc, fun m' hstep stored stored' hs hs' => ?_⟩
  · exact (hgood.world stored hs).1.validate
  · cases hstep with
    | begins | ended | died => exact congrArg Journal.prepared (Option.some.inj (hs'.symm.trans hs))
    | answered w w' c next a hw =>
      -- only a call that persists a journal can change the one that is stored into another
      have hallowed : Allowed planner.toCore w c := hgood.allowed rfl
      cases hw with
      | persisted | persistLost =>
        cases hs'
        exact (hallowed.2 stored hs).prepared
      | cleared => cases hs'
      | loaded | effect | failed => exact congrArg Journal.prepared (Option.some.inj (hs'.symm.trans hs))

/-- A journal is erased though nothing was read back as adopted. -/
theorem rolledBack_erases : ∃ m attempt next, Machine.Reach Answers (Entry samplePlanner.toCore) ⟨none, []⟩ m ∧
    m.running = some (.call (.clearJournal attempt) next) ∧
    ∀ request answer, (⟨.successorIsAdopted request, answer⟩ : Σ c : Call, c.Answer) ∉ m.world.history := by
  obtain ⟨journal, hnew, hvalid⟩ := sampleStart_valid
  refine ⟨_, _, _, rolledBack_reaches hnew hvalid, rfl, fun request answer h => ?_⟩
  simp at h

theorem reset_survives_crashes_sample :
    ∃ m stored, Machine.Reach Answers (Entry samplePlanner.toCore) ⟨none, []⟩ m ∧
    m.world.stored = some stored ∧ validate samplePlanner.toCore stored = true ∧
    Allowed samplePlanner.toCore m.world (.clearJournal stored.attempt) := by
  obtain ⟨journal, hnew, hvalid⟩ := sampleStart_valid
  have hreach := rolledBack_reaches hnew hvalid
  obtain ⟨hstored, hallowed, -⟩ := reset_survives_crashes samplePlanner hreach
  exact ⟨_, journal, hreach, rfl, hstored journal rfl, hallowed _ _ rfl⟩

end DenEdge.Executor
