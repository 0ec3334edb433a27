import Mathlib.Data.List.Infix

/-!
# Replacing a word from the left

A scan finds a word in a list, puts another in its place and goes on after what it put in. `Replaced` relates the
list to what becomes of it. The lemmas say what the two parts of a result that is cut in two came from
(`Replaced.cut_result`), and what a result begins with (`Replaced.start_result`).
-/

namespace DenEdge

variable {α : Type*} {n w u v a b x : List α}

/-- Each `n` that a scan from the left finds is replaced by `w`. -/
inductive Replaced (n w : List α) : List α → List α → Prop
  | nil : Replaced n w [] []
  | keep {c : α} {u v : List α} : ¬ n <+: c :: u → Replaced n w u v → Replaced n w (c :: u) (c :: v)
  | found {u v : List α} : Replaced n w u v → Replaced n w (n ++ u) (w ++ v)

namespace Replaced

/-- A result is cut in two: the parts come from two parts of the list, or the cut is inside what was put in. -/
theorem cut_result (h : Replaced n w u (a ++ b)) :
    (∃ a' b', u = a' ++ b' ∧ Replaced n w a' a ∧ Replaced n w b' b) ∨
      ∃ w₁ w₂, w = w₁ ++ w₂ ∧ w₁ ≠ [] ∧ w₂ ≠ [] ∧
        ∃ a' b' y, u = a' ++ (n ++ b') ∧ b = w₂ ++ y ∧ Replaced n w b' y := by
  generalize hv : a ++ b = v at h
  induction h generalizing a b with
  | nil =>
    obtain ⟨rfl, rfl⟩ := List.append_eq_nil_iff.mp hv
    exact .inl ⟨[], [], rfl, .nil, .nil⟩
  | @keep c u v hnot h ih =>
    rcases List.append_eq_cons_iff.mp hv with ⟨rfl, rfl⟩ | ⟨a, rfl, rfl⟩
    · exact .inl ⟨[], c :: u, rfl, .nil, .keep hnot h⟩
    rcases ih rfl with ⟨a', b', rfl, ha, hb⟩ | ⟨w₁, w₂, hw, h₁, h₂, a', b', y, rfl, hb, hy⟩
    · have hnot : ¬ n <+: c :: a' := fun hpre => hnot (hpre.trans (List.prefix_append (c :: a') b'))
      exact .inl ⟨c :: a', b', rfl, .keep hnot ha, hb⟩
    · exact .inr ⟨w₁, w₂, hw, h₁, h₂, c :: a', b', y, rfl, hb, hy⟩
  | @found u v h ih =>
    rcases List.append_eq_append_iff.mp hv with ⟨c, hw, rfl⟩ | ⟨a, rfl, rfl⟩
    · rcases eq_or_ne a [] with rfl | ha
      · obtain rfl : w = c := hw
        exact .inl ⟨[], n ++ u, rfl, .nil, .found h⟩
      rcases eq_or_ne c [] with rfl | hc
      · obtain rfl : w = a := by simpa using hw
        exact .inl ⟨n, u, rfl, by simpa using Replaced.found (.nil : Replaced n w [] []), h⟩
      · exact .inr ⟨a, c, hw, ha, hc, [], u, v, rfl, rfl, h⟩
    · rcases ih rfl with ⟨a', b', rfl, ha, hb⟩ | ⟨w₁, w₂, hw, h₁, h₂, a', b', y, rfl, hb, hy⟩
      · exact .inl ⟨n ++ a', b', by simp, .found ha, hb⟩
      · exact .inr ⟨w₁, w₂, hw, h₁, h₂, n ++ a', b', y, by simp, hb, hy⟩

/-- What a result begins with: a beginning of the list, or one that runs into the first word that was put in. -/
theorem start_result (h : Replaced n w u v) (hx : x <+: v) :
    x <+: u ∧ (x = [] ∨ ¬ n <+: u) ∨
      ∃ p s b y, x = p ++ s ∧ s ≠ [] ∧ u = p ++ (n ++ b) ∧ Replaced n w b y ∧ s <+: w ++ y := by
  rcases eq_or_ne x [] with rfl | hne
  · exact .inl ⟨by simp, .inl rfl⟩
  induction h generalizing x with
  | nil => exact absurd (List.prefix_nil.mp hx) hne
  | @keep c u v hnot h ih =>
    obtain ⟨x, rfl, htail⟩ := (List.prefix_cons_iff.mp hx).resolve_left hne
    rcases eq_or_ne x [] with rfl | hne
    · exact .inl ⟨by simp, .inr hnot⟩
    rcases ih htail hne with ⟨hpre, -⟩ | ⟨p, s, b, y, rfl, hs, rfl, hy, hpre⟩
    · exact .inl ⟨List.cons_prefix_cons.mpr ⟨rfl, hpre⟩, .inr hnot⟩
    · exact .inr ⟨c :: p, s, b, y, rfl, hs, rfl, hy, hpre⟩
  | @found u v h => exact .inr ⟨[], x, u, v, rfl, hne, rfl, h, hx⟩

end Replaced

end DenEdge
