import Mathlib.Logic.Relation
import Mathlib.Tactic

/-!
# Programs that make calls, and die between them

A program is done, or waits for the answer to a call. It runs against a world: each answer comes with what the
call did to the world, and the process that runs the program may die at any moment, its last call done or not.
What holds whatever the world answers and wherever the process dies is then said of the program's text alone.

* `Program`, `bind`: programs and their sequence.
* `Keeps env ok I Q p w`: run from the world `w`, the program makes only calls that are `ok`, finds the world `I`
  after every call, and ends in `Q`.
* `keeps_bind`, `Keeps.mono`: its rules.
* `run`: a program run alone, how each of its calls ends given; `Keeps.run`, `Keeps.died`: what `Keeps` says of
  it.
* `Machine.Step`: one process that runs programs one after another and dies at any moment.
* `Machine.reach_good`: if every program keeps the invariant, it holds of every world reached, and every call made
  is `ok`.
-/

universe u v w x y

/-- A program that makes calls `C`, each with its own type of answer. -/
inductive Program (C : Type u) (A : C → Type v) (α : Type w) where
  | done (result : α)
  | call (c : C) (next : A c → Program C A α)

namespace Program

variable {C : Type u} {A : C → Type v} {α : Type w} {β : Type x} {σ : Type y}

/-- One program, then another. -/
def bind : Program C A α → (α → Program C A β) → Program C A β
  | .done a, f => f a
  | .call c next, f => .call c fun a => (next a).bind f

variable (env : σ → (c : C) → A c → σ → Prop) (ok : σ → C → Prop) (I : σ → Prop)

/-- Run from a world, a program makes only calls that are allowed there, leaves the invariant after every call,
whatever is answered, and ends as wanted. -/
def Keeps (Q : α → σ → Prop) : Program C A α → σ → Prop
  | .done a, w => Q a w
  | .call c next, w => ok w c ∧ ∀ a w', env w c a w' → I w' ∧ (next a).Keeps Q w'

variable {env ok I}
variable {p : Program C A α} {w : σ}

variable {Q : α → σ → Prop}

theorem Keeps.mono {Q' : α → σ → Prop} (h : p.Keeps env ok I Q w)
    (hQ : ∀ a w, Q a w → Q' a w) : p.Keeps env ok I Q' w := by
  induction p generalizing w with
  | done a => exact hQ a w h
  | call c next ih =>
    refine ⟨h.1, fun a w' henv => ?_⟩
    obtain ⟨hinv, hnext⟩ := h.2 a w' henv
    exact ⟨hinv, ih a hnext⟩

/-- **Sequence rule.** -/
theorem keeps_bind {Q : β → σ → Prop} {f : α → Program C A β}
    (h : p.Keeps env ok I (fun a w => (f a).Keeps env ok I Q w) w) : (p.bind f).Keeps env ok I Q w := by
  induction p generalizing w with
  | done a => exact h
  | call c next ih =>
    refine ⟨h.1, fun a w' henv => ?_⟩
    obtain ⟨hinv, hnext⟩ := h.2 a w' henv
    exact ⟨hinv, ih a hnext⟩

/-! ## A program run alone -/

section Run

variable {ω : Type*} (act : σ → (c : C) → ω → σ × Option (A c)) (fate : ℕ → C → ω)

/-- The world a program leaves and what it ends with, nothing where its process died on the way. How a call ends
depends on the call and on how many were made before it. -/
def run : Program C A α → ℕ → σ → σ × Option α
  | .done a, _, w => (w, some a)
  | .call c next, n, w =>
    match act w c (fate n c) with
    | (w', none) => (w', none)
    | (w', some a) => (next a).run (n + 1) w'

variable {act fate}

/-- A program that ends, ends as wanted. -/
theorem Keeps.run (henv : ∀ n w c w' a, act w c (fate n c) = (w', some a) → env w c a w')
    (h : p.Keeps env ok I Q w) {n : ℕ} {w' : σ} {a : α} (hrun : p.run act fate n w = (w', some a)) : Q a w' := by
  induction p generalizing w n with
  | done b =>
    obtain ⟨rfl, rfl⟩ := hrun
    exact h
  | call c next ih =>
    rw [Program.run] at hrun
    split at hrun
    · cases hrun
    · rename_i w₁ b hact
      exact ih b (h.2 b w₁ (henv n w c w₁ b hact)).2 hrun

/-- Where the process dies on the way, the invariant holds. -/
theorem Keeps.died (henv : ∀ n w c w' a, act w c (fate n c) = (w', some a) → env w c a w')
    (hdies : ∀ n w c w', act w c (fate n c) = (w', none) → w' = w ∨ ∃ a, env w c a w')
    (h : p.Keeps env ok I Q w) (hw : I w) {n : ℕ} {w' : σ} (hrun : p.run act fate n w = (w', none)) : I w' := by
  induction p generalizing w n with
  | done b => cases hrun
  | call c next ih =>
    rw [Program.run] at hrun
    split at hrun
    · rename_i w₁ hact
      cases hrun
      rcases hdies n w c w' hact with rfl | ⟨a, henv⟩
      · exact hw
      · exact (h.2 a w' henv).1
    · rename_i w₁ b hact
      obtain ⟨hinv, hnext⟩ := h.2 b w₁ (henv n w c w₁ b hact)
      exact ih b hnext hinv hrun

end Run

/-! ## A process that dies at any moment -/

/-- A world and what the process is at. -/
structure Machine (σ : Type y) (C : Type u) (A : C → Type v) (α : Type w) where
  world : σ
  running : Option (Program C A α)

variable {entry : Program C A α → Prop} {m : Machine σ C A α}

namespace Machine

/-- A step: the process begins a program, gets an answer, ends, or dies. -/
inductive Step (env : σ → (c : C) → A c → σ → Prop) (entry : Program C A α → Prop) :
    Machine σ C A α → Machine σ C A α → Prop where
  | begins (w : σ) (p : Program C A α) (h : entry p) : Step env entry ⟨w, none⟩ ⟨w, some p⟩
  | answered (w w' : σ) (c : C) (next : A c → Program C A α) (a : A c) (h : env w c a w') :
      Step env entry ⟨w, some (.call c next)⟩ ⟨w', some (next a)⟩
  | ended (w : σ) (a : α) : Step env entry ⟨w, some (.done a)⟩ ⟨w, none⟩
  | died (w : σ) (p : Program C A α) : Step env entry ⟨w, some p⟩ ⟨w, none⟩

/-- What is reached from a world in which nothing runs. -/
def Reach (env : σ → (c : C) → A c → σ → Prop) (entry : Program C A α → Prop) (w : σ) : Machine σ C A α → Prop :=
  Relation.ReflTransGen (Step env entry) ⟨w, none⟩

/-- One more answer. -/
theorem Reach.answered {env : σ → (c : C) → A c → σ → Prop} {v v' : σ}
    (h : Reach env entry w ⟨v, some p⟩) {c : C} {next : A c → Program C A α} (hp : p = .call c next)
    {a : A c} (henv : env v c a v') {p' : Program C A α} (hp' : next a = p') :
    Reach env entry w ⟨v', some p'⟩ := by
  subst hp hp'
  exact h.tail (.answered v v' c next a henv)

/-- The invariant holds of the world, and what runs keeps it. -/
structure Good (env : σ → (c : C) → A c → σ → Prop) (ok : σ → C → Prop) (I : σ → Prop)
    (m : Machine σ C A α) : Prop where
  world : I m.world
  running : ∀ p, m.running = some p → p.Keeps env ok I (fun _ w => I w) m.world

theorem Good.step (hentry : ∀ p w, entry p → I w → p.Keeps env ok I (fun _ w => I w) w)
    {m' : Machine σ C A α} (h : Good env ok I m) (hstep : Step env entry m m') : Good env ok I m' := by
  cases hstep with
  | begins w p hp =>
    refine ⟨h.world, fun q hq => ?_⟩
    cases hq
    exact hentry p w hp h.world
  | answered w w' c next a henv =>
    obtain ⟨hinv, hnext⟩ := (h.running _ rfl).2 a w' henv
    refine ⟨hinv, fun q hq => ?_⟩
    cases hq
    exact hnext
  | ended | died =>
    refine ⟨h.world, fun q hq => ?_⟩
    cases hq

/-- **Run rule.** If every program that may begin keeps the invariant, everything reached is good. -/
theorem reach_good (hentry : ∀ p w, entry p → I w → p.Keeps env ok I (fun _ w => I w) w) (hw : I w)
    (h : Reach env entry w m) : Good env ok I m := by
  induction h with
  | refl =>
    refine ⟨hw, fun q hq => ?_⟩
    cases hq
  | tail _ hstep ih => exact ih.step hentry hstep

/-- The call a machine is about to make is allowed. -/
theorem Good.allowed (h : Good env ok I m) {c : C} {next : A c → Program C A α}
    (hc : m.running = some (.call c next)) : ok m.world c := (h.running _ hc).1

end Machine

end Program
