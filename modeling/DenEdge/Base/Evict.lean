import Mathlib.Data.List.MinMax
import Mathlib.Tactic

/-!
# Making room

A loop that drops one entry after another until there is room, or until nothing more can be dropped. How often it
may go round is bounded by the number of entries.

* `Evict.loop`: the loop, with what it ends in and whether there is room.
* `Evict.loop_inv`: what each drop preserves.
* `Evict.loop_room`, `Evict.loop_stuck`: what a loop that ends with or without room has found.
-/

namespace Evict

variable {σ κ : Type*} (full : σ → Bool) (victim : σ → Option κ) (drop : σ → κ → σ)

/-- Drops victims while there is no room. The flag says whether there is room at the end. -/
def loop : ℕ → σ → Bool × σ
  | 0, s => (!full s, s)
  | n + 1, s =>
    if full s then
      match victim s with
      | none => (false, s)
      | some k => loop n (drop s k)
    else (true, s)

variable {full victim drop} {I : σ → Prop}

theorem loop_inv (hdrop : ∀ s k, I s → victim s = some k → I (drop s k)) (n : ℕ) {s : σ} (hs : I s) :
    I (loop full victim drop n s).2 := by
  induction n generalizing s with
  | zero => exact hs
  | succ n ih =>
    unfold loop
    split_ifs
    · split
      · exact hs
      · rename_i k hk
        exact ih (hdrop s k hs hk)
    · exact hs

theorem loop_room (n : ℕ) {s : σ} (h : (loop full victim drop n s).1 = true) :
    full (loop full victim drop n s).2 = false := by
  induction n generalizing s with
  | zero => simpa [loop] using h
  | succ n ih =>
    unfold loop at h ⊢
    split_ifs at h ⊢ with hfull
    · split at h
      · cases h
      · exact ih h
    · simpa using hfull

/-- A loop that has room from the start drops nothing. -/
theorem loop_of_room (n : ℕ) {s : σ} (h : full s = false) : loop full victim drop n s = (true, s) := by
  cases n with
  | zero => simp [loop, h]
  | succ n => simp [loop, h]

/-- A loop that may go round as often as there are entries ends without room only where nothing more can be
dropped. -/
theorem loop_stuck (size : σ → ℕ)
    (hdrop : ∀ s k, I s → victim s = some k → I (drop s k) ∧ size (drop s k) < size s)
    (n : ℕ) {s : σ} (hs : I s) (hn : size s ≤ n) (h : (loop full victim drop n s).1 = false) :
    full (loop full victim drop n s).2 = true ∧ victim (loop full victim drop n s).2 = none := by
  induction n generalizing s with
  | zero =>
    refine ⟨by simpa [loop] using h, ?_⟩
    -- nothing is left that could be dropped
    cases hk : victim s with
    | none => exact hk
    | some k =>
      have := (hdrop s k hs hk).2
      omega
  | succ n ih =>
    unfold loop at h ⊢
    split_ifs at h ⊢ with hfull
    cases hk : victim s with
    | none => exact ⟨hfull, hk⟩
    | some k =>
      simp only [hk] at h ⊢
      have hnext := hdrop s k hs hk
      exact ih hnext.1 (by omega) h

/-! ## Who goes first -/

variable {V : Type*} {α : Type*} [LinearOrder α]

/-- The least entry of those that may go. -/
def least (may : κ → V → Bool) (key : κ × V → α) (m : List (κ × V)) : Option κ :=
  ((m.filter fun e => may e.1 e.2).argmin key).map Prod.fst

theorem mem_of_least {may : κ → V → Bool} {key : κ × V → α} {m : List (κ × V)} {k : κ}
    (h : least may key m = some k) : ∃ v, (k, v) ∈ m ∧ may k v = true := by
  obtain ⟨e, he, rfl⟩ := Option.map_eq_some_iff.mp h
  have hmem := List.mem_filter.mp (List.argmin_mem he)
  exact ⟨e.2, hmem.1, hmem.2⟩

theorem least_eq_none {may : κ → V → Bool} {key : κ × V → α} {m : List (κ × V)} :
    least may key m = none ↔ ∀ e ∈ m, may e.1 e.2 = false := by
  simp [least, List.argmin_eq_none, List.filter_eq_nil_iff]

end Evict
