import DenEdge.Reset.Effects

/-!
# What an event leaves of one library

What `Acts` says of a library that is stored before and after an event, and of one that is not.

* `step_leaves`: every event leaves a stored library as it was, or by one commit.
* `retire_record`: a retirement under a reset leaves the marker of the library's live record.
* `step_absent`, `step_stored`: only a first write makes a library, and only an event that names it retires one.
-/

namespace DenEdge.Reset

variable {hex : Hash → String} {libs libs' : Libraries} {s : Server} {e : Event} {id : String} {v v' : Vault}

/-- A library that one library's replacement leaves stored is another one, or the replacement. -/
theorem update_stored {at' : String} {new : Library} (h : Function.update libs at' new id = .stored v') :
    (at' = id ∧ new = .stored v') ∨ (at' ≠ id ∧ libs id = .stored v') := by
  by_cases hid : at' = id
  · subst hid
    rw [Function.update_self] at h
    exact .inl ⟨rfl, h⟩
  · rw [Function.update_of_ne (Ne.symm hid)] at h
    exact .inr ⟨hid, h⟩

theorem Commit.update {at' : String} {w w' : Vault} (hw : s.libs at' = .stored w) (h : Commit s e at' w w')
    (hv : s.libs id = .stored v) (hv' : Function.update s.libs at' (.stored w') id = .stored v') :
    v' = v ∨ Commit s e id v v' := by
  rcases update_stored hv' with ⟨rfl, hnew⟩ | ⟨-, hkept⟩
  · cases hw.symm.trans hv
    cases hnew
    exact .inr h
  · cases hv.symm.trans hkept
    exact .inl rfl

theorem Acts.leaves (h : Acts s e libs') (hv : s.libs id = .stored v) (hv' : libs' id = .stored v') :
    v' = v ∨ Commit s e id v v' := by
  have hsame : s.libs id = .stored v' → v' = v ∨ Commit s e id v v' := fun hkept => by
    cases hv.symm.trans hkept
    exact .inl rfl
  cases h with
  | same => exact hsame hv'
  | edited at' w w' hw h => exact h.update hw hv hv'
  | created _ _ _ _ habsent =>
    rcases update_stored hv' with ⟨rfl, -⟩ | ⟨-, hkept⟩
    · cases habsent.symm.trans hv
    · exact hsame hkept
  | retired =>
    rcases update_stored hv' with ⟨-, hnew⟩ | ⟨-, hkept⟩
    · cases hnew
    · exact hsame hkept
  | doored _ _ _ _ _ _ _ hhouse hdoor =>
    rcases update_stored hv' with ⟨-, hnew⟩ | ⟨-, hkept⟩
    · cases hnew
    · exact hdoor.update hhouse hv hkept

/-- **Every event leaves a stored library as it was, or by one commit.** -/
theorem step_leaves (hok : LibsOK s.libs) (hv : s.libs id = .stored v)
    (hv' : (s.step hex e).libs id = .stored v') : v' = v ∨ Commit s e id v v' :=
  (step_acts hok e).leaves hv hv'

/-- What a retirement under a reset was of: the live record of the library, and the marker left of it. -/
theorem retire_record (hok : LibsOK s.libs) {r : RetireRequest} {m : Marker} (hv : s.libs r.id = .stored v)
    (hm : (s.step hex (.retire r)).libs r.id = .moved m) :
    ∃ record, v.reset = some record ∧ record.phase.live = true ∧ m = retiredMarker r record := by
  have hacts : Acts s (.retire r) (s.step hex (.retire r)).libs := step_acts hok _
  generalize (s.step hex (.retire r)).libs = libs' at hacts hm
  cases hacts with
  | same => cases hv.symm.trans hm
  | edited at' =>
    by_cases hid : r.id = at'
    · subst hid
      rw [Function.update_self] at hm
      cases hm
    · rw [Function.update_of_ne hid, hv] at hm
      cases hm
  | created _ _ _ he => cases he
  | retired _ _ _ htarget hw hmarker | doored _ _ _ _ _ _ htarget _ _ hw hmarker =>
    cases htarget
    cases hv.symm.trans hw
    rw [Function.update_self] at hm
    cases hm
    exact hmarker r rfl

/-- **Only a first write makes a library.** -/
theorem step_absent (hok : LibsOK s.libs) (habsent : s.libs id = .absent) (e : Event) :
    (s.step hex e).libs id = .absent ∨ ∃ token change, e = .write id token change ∧
      (s.step hex e).libs id = .stored (newVault token change) := by
  have hne : ∀ {at' : String} {w : Vault}, s.libs at' = .stored w → id ≠ at' := by
    rintro at' w hw rfl
    cases habsent.symm.trans hw
  have hacts : Acts s e (s.step hex e).libs := step_acts hok e
  generalize (s.step hex e).libs = libs' at hacts
  cases hacts with
  | same => exact .inl habsent
  | edited _ _ _ hw | retired _ _ _ _ hw => exact .inl ((Function.update_of_ne (hne hw) _ _).trans habsent)
  | created at' token change he =>
    by_cases hid : id = at'
    · subst hid
      exact .inr ⟨token, change, he, Function.update_self ..⟩
    · exact .inl ((Function.update_of_ne hid _ _).trans habsent)
  | doored _ _ _ _ _ _ _ hhouse _ hw =>
    left
    rwa [Function.update_of_ne (hne hw), Function.update_of_ne (hne hhouse)]

/-- **A stored library stays stored, or is retired by an event that names it.** -/
theorem step_stored (hok : LibsOK s.libs) (hv : s.libs id = .stored v) (e : Event) :
    (∃ v', (s.step hex e).libs id = .stored v') ∨
      (e.target s = some id ∧ ∃ m, (s.step hex e).libs id = .moved m) := by
  have hstays : ∀ {libs : Libraries} {at' : String} {w : Vault}, (∃ v', libs id = .stored v') →
      ∃ v', Function.update libs at' (.stored w) id = .stored v' := by
    rintro libs at' w ⟨v', hv'⟩
    by_cases hid : id = at'
    · subst hid
      exact ⟨w, Function.update_self ..⟩
    · exact ⟨v', (Function.update_of_ne hid _ _).trans hv'⟩
  have hmoves : ∀ {libs : Libraries} {at' : String} {m : Marker}, (∃ v', libs id = .stored v') →
      e.target s = some at' → (∃ v', Function.update libs at' (.moved m) id = .stored v') ∨
        (e.target s = some id ∧ ∃ m', Function.update libs at' (.moved m) id = .moved m') := by
    rintro libs at' m ⟨v', hv'⟩ htarget
    by_cases hid : id = at'
    · subst hid
      exact .inr ⟨htarget, m, Function.update_self ..⟩
    · exact .inl ⟨v', (Function.update_of_ne hid _ _).trans hv'⟩
  have hacts : Acts s e (s.step hex e).libs := step_acts hok e
  generalize (s.step hex e).libs = libs' at hacts
  cases hacts with
  | same => exact .inl ⟨v, hv⟩
  | edited | created => exact .inl (hstays ⟨v, hv⟩)
  | retired _ _ _ htarget => exact hmoves ⟨v, hv⟩ htarget
  | doored _ _ _ _ _ _ htarget => exact hmoves (hstays ⟨v, hv⟩) htarget

end DenEdge.Reset
