import Mathlib.Data.List.Basic
import Mathlib.Tactic

/-!
# Lines of history

A list of states that something has been in, each on a line of history or on none, at a height. The history is
linear if, of two states of one line, the lower leads to the higher: a line never forks. Adding a state keeps that
in three cases: the state starts a line of its own, it is a twin of a state already there, or it is above the top
of its line.

* `Lineage.Linear`, `Lineage.Top`.
* `Linear.fresh`, `Linear.twin`, `Linear.above`: the three ways a linear history grows.
* `Top.fresh`, `Top.twin`, `Top.above`: what they leave of the top of a line.
-/

namespace Lineage

variable {σ G : Type*} (line : σ → Option G) (height : σ → ℕ) (leads : σ → σ → Prop)

/-- Of two states of one line, the lower leads to the higher. -/
def Linear (states : List σ) : Prop :=
  ∀ a ∈ states, ∀ b ∈ states, ∀ g, line a = some g → line b = some g → height a ≤ height b → leads a b

/-- No state of the line is above the height. -/
def Top (states : List σ) (g : G) (h : ℕ) : Prop := ∀ a ∈ states, line a = some g → height a ≤ h

variable {line height leads} {states : List σ} {b c : σ}

/-- A state that starts a line of its own. -/
theorem Linear.fresh (h : Linear line height leads states) (hself : leads b b)
    (hnew : ∀ a ∈ states, line b = none ∨ line a ≠ line b) : Linear line height leads (b :: states) := by
  have hother : ∀ a ∈ states, ∀ g, line b = some g → line a ≠ some g := by
    intro a ha g hb hline
    rcases hnew a ha with hnone | hne
    · rw [hnone] at hb
      cases hb
    · exact hne (hline.trans hb.symm)
  intro x hx y hy g hgx hgy hle
  rcases List.mem_cons.mp hx with rfl | hx' <;> rcases List.mem_cons.mp hy with rfl | hy'
  · exact hself
  · exact absurd hgy (hother y hy' g hgx)
  · exact absurd hgx (hother x hx' g hgy)
  · exact h x hx' y hy' g hgx hgy hle

/-- A state beside one that is there: on its line, at its height, each leading to the other. -/
theorem Linear.twin (h : Linear line height leads states) (htrans : ∀ x y z, leads x y → leads y z → leads x z)
    (hc : c ∈ states) (hline : line b = line c) (hheight : height b = height c) (hbc : leads b c)
    (hcb : leads c b) : Linear line height leads (b :: states) := by
  intro x hx y hy g hgx hgy hle
  rcases List.mem_cons.mp hx with rfl | hx' <;> rcases List.mem_cons.mp hy with rfl | hy'
  · exact htrans _ _ _ hbc hcb
  · exact htrans _ _ _ hbc (h c hc y hy' g (hline ▸ hgx) hgy (hheight ▸ hle))
  · exact htrans _ _ _ (h x hx' c hc g hgx (hline ▸ hgy) (hheight ▸ hle)) hcb
  · exact h x hx' y hy' g hgx hgy hle

/-- A state above the top of its line. -/
theorem Linear.above (h : Linear line height leads states) (htrans : ∀ x y z, leads x y → leads y z → leads x z)
    (hc : c ∈ states) (hline : line b = line c) (hlt : height c < height b)
    (htop : ∀ g, line c = some g → Top line height states g (height c)) (hself : leads b b) (hcb : leads c b) :
    Linear line height leads (b :: states) := by
  intro x hx y hy g hgx hgy hle
  rcases List.mem_cons.mp hx with rfl | hx' <;> rcases List.mem_cons.mp hy with rfl | hy'
  · exact hself
  · -- nothing of the line is as high as the new state
    have hgc : line c = some g := hline ▸ hgx
    have := htop g hgc y hy' hgy
    omega
  · have hgc : line c = some g := hline ▸ hgy
    exact htrans _ _ _ (h x hx' c hc g hgx hgc (htop g hgc x hx' hgx)) hcb
  · exact h x hx' y hy' g hgx hgy hle

variable {g : G} {n : ℕ}

theorem Top.fresh (h : Top line height states g n) (hline : line b ≠ some g) :
    Top line height (b :: states) g n := by
  refine List.forall_mem_cons.mpr ⟨fun hga => ?_, h⟩
  exact absurd hga hline

theorem Top.twin (h : Top line height states g n) (hc : c ∈ states) (hline : line b = line c)
    (hheight : height b = height c) : Top line height (b :: states) g n := by
  refine List.forall_mem_cons.mpr ⟨fun hga => ?_, h⟩
  rw [hheight]
  exact h c hc (hline ▸ hga)

/-- The top of the line a state was added to, if it is not below what was there. -/
theorem Top.above (h : Top line height states g n) (hle : n ≤ height b) :
    Top line height (b :: states) g (height b) := by
  refine List.forall_mem_cons.mpr ⟨fun _ => le_refl _, fun a ha hga => ?_⟩
  exact (h a ha hga).trans hle

/-- The top of a line only the new state is on. -/
theorem Top.start (h : ∀ a ∈ states, line a ≠ some g) : Top line height (b :: states) g (height b) := by
  refine List.forall_mem_cons.mpr ⟨fun _ => le_refl _, fun a ha hga => ?_⟩
  exact absurd hga (h a ha)

end Lineage
