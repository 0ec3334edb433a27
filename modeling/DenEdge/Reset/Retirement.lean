import DenEdge.Reset.Effects

/-!
# A key reset never loses a library

Once a member library has been retired under an attempt, the household's record of that attempt is retiring or the
household is itself retired, and nothing that comes later changes that: no abort or rollback ends the reset, so
nothing it declared is ever owed to a sweep.
-/

namespace DenEdge.Reset

variable {hex : Hash → String}

/-- A reset that stands: its household has decided for it, and no list of successors to delete is of its attempt,
neither one the household owes nor one a running sweep has read. -/
structure ResetStands (s : Server) (household attempt : String) : Prop where
  decided : Decided s.libs household attempt
  notOwed : ∀ v owed, s.libs household = .stored v → v.sweep = some owed → owed.attempt ≠ attempt
  notSwept : ∀ task ∈ s.sweeps, task.household = household → task.owed.attempt ≠ attempt

/-- The next commit of a sweep of what an attempt declared. -/
def SweepsFor (household attempt : String) (s : Server) : Event → Prop
  | .sweepStep i _ => ∃ task, s.sweeps[i]? = some task ∧ task.household = household ∧ task.owed.attempt = attempt
  | _ => False

/-- A retired member's reset stands. -/
theorem ServerOK.stands {s : Server} (hok : ServerOK s) {id successor : String} {t : Tombstone}
    (hm : s.libs id = .moved (.exclusive successor t)) (hrole : t.role = .profile) :
    ∃ household, t.household = some household ∧ ResetStands s household t.acquired := by
  obtain ⟨household, hh, hd⟩ := hok.libs.markers id _ hm hrole
  refine ⟨household, hh, hd, fun v owed hv ho hattempt => ?_, fun task htask hhouse hattempt => ?_⟩
  · exact (hok.libs.owed hv ho).2 id successor t hm hrole hh hattempt.symm
  · have hunmarked := (hok.sweeps task htask).2
    rw [hhouse] at hunmarked
    exact hunmarked id successor t hm hrole hh hattempt.symm

theorem marker_eq_some {library : Library} {m : Marker} (h : library.marker = some m) : library = .moved m := by
  cases library with
  | moved m' =>
    cases h
    rfl
  | absent => cases h
  | stored v => cases h

/-- **A key reset never loses a library.** Once a member is retired under an attempt, in every run from there on
its marker stays, its household's record of the attempt is retiring or the household is retired, and no commit of
a sweep is of what the attempt declared. -/
theorem reset_never_loses_a_library (hex : Hash → String) (es : List Event) (id successor : String)
    (t : Tombstone)
    (hretired : ((Run.exec (Server.step hex) Server.empty es).libs id).marker = some (.exclusive successor t))
    (hmember : t.role = .profile) :
    ∃ household, t.household = some household ∧ ∀ fs,
      ((Run.exec (Server.step hex) Server.empty (es ++ fs)).libs id).marker = some (.exclusive successor t) ∧
        ResetStands (Run.exec (Server.step hex) Server.empty (es ++ fs)) household t.acquired ∧
        Run.Meets (Server.step hex) (fun s e => ¬ SweepsFor household t.acquired s e)
          (Run.exec (Server.step hex) Server.empty es) fs := by
  have hok := run_serverOK hex es
  have hm := marker_eq_some hretired
  obtain ⟨household, hh, -⟩ := hok.stands hm hmember
  -- the household is read off the marker, so it is the same one at every later state
  have hstands : ∀ s : Server, ServerOK s → s.libs id = .moved (.exclusive successor t) →
      ResetStands s household t.acquired := by
    intro s hs hms
    obtain ⟨household', hh', hstand⟩ := hs.stands hms hmember
    rw [hh] at hh'
    cases hh'
    exact hstand
  refine ⟨household, hh, fun fs => ?_⟩
  rw [Run.exec_append]
  have hm' : (Run.exec (Server.step hex) (Run.exec (Server.step hex) Server.empty es) fs).libs id =
      .moved (.exclusive successor t) := run_moved hok fs hm
  refine ⟨by rw [hm']; rfl, hstands _ ?_ hm', ?_⟩
  · rw [← Run.exec_append]
    exact run_serverOK hex _
  · refine Run.meets_of_inv (I := fun s => ServerOK s ∧ s.libs id = .moved (.exclusive successor t)) ?_
      ?_ fs ⟨hok, hm⟩
    · rintro s e ⟨hs, hms⟩
      exact ⟨step_serverOK hs e, (step_libSteps hs e).moved hms⟩
    · rintro s e ⟨hs, hms⟩ hsweeps
      cases e with
      | sweepStep =>
        obtain ⟨task, htask, hhouse, hattempt⟩ := hsweeps
        exact (hstands s hs hms).notSwept task (List.mem_of_getElem? htask) hhouse hattempt
      | _ => exact hsweeps

/-! A household with one profile, reset by one attempt. -/

def householdId : String := "aaaaaaaaaaaaaaaa"
def profileId : String := "bbbbbbbbbbbbbbbb"
def newHouseholdId : String := "cccccccccccccccc"
def newProfileId : String := "dddddddddddddddd"
def attemptA : String := "a000000000000000000000000000000a"
def sampleDigest : String := "0000000000000000000000000000000000000000000000000000000000000000"

def showHash (h : Hash) : String := toString h.toNat

/-- A library's first write, at a wire minimum. -/
def firstWrite (id : String) (wireMin : ℕ) : Event := .write id 1 ⟨wireMin, "g", 0, 1, sampleDigest, true⟩

def acquireHousehold (id attempt successor : String) (members : List Member) : Event :=
  .post ⟨id, 1, some 5, none,
    ⟨attempt, PURPOSE, .household, ⟨0, sampleDigest⟩, some successor, some members, none⟩, "lock"⟩

def acquireProfile (id attempt successor household : String) : Post :=
  ⟨id, 1, some 4, none,
    ⟨attempt, PURPOSE, .profile, ⟨0, sampleDigest⟩, some successor, none, some household⟩, "lock"⟩

/-- The whole reset up to the profile's retirement. -/
def sampleReset : List Event :=
  [firstWrite householdId 5, firstWrite profileId 4,
    acquireHousehold householdId attemptA newHouseholdId [⟨profileId, newProfileId⟩],
    .post (acquireProfile profileId attemptA newProfileId householdId),
    firstWrite newHouseholdId 5, firstWrite newProfileId 4,
    .successorCommit ⟨householdId, 1, some 5, attemptA, newHouseholdId⟩,
    .retire ⟨profileId, 1, some 4, attemptA, newProfileId, "g", false⟩]

def sampleTombstone : Tombstone := ⟨"lock", attemptA, attemptA, .profile, some householdId, [], []⟩

theorem reset_never_loses_a_library_sample :
    ((Run.exec (Server.step showHash) Server.empty sampleReset).libs profileId).marker =
        some (.exclusive newProfileId sampleTombstone) ∧
      ∃ household, sampleTombstone.household = some household ∧ ∀ fs,
        ((Run.exec (Server.step showHash) Server.empty (sampleReset ++ fs)).libs profileId).marker =
            some (.exclusive newProfileId sampleTombstone) ∧
          ResetStands (Run.exec (Server.step showHash) Server.empty (sampleReset ++ fs)) household attemptA ∧
          Run.Meets (Server.step showHash) (fun s e => ¬ SweepsFor household attemptA s e)
            (Run.exec (Server.step showHash) Server.empty sampleReset) fs :=
  have hretired : ((Run.exec (Server.step showHash) Server.empty sampleReset).libs profileId).marker =
      some (.exclusive newProfileId sampleTombstone) := by decide +kernel
  ⟨hretired, reset_never_loses_a_library showHash sampleReset profileId newProfileId sampleTombstone hretired rfl⟩

end DenEdge.Reset
