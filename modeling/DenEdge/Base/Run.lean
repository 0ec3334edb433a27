import Mathlib.Data.List.Basic
import Mathlib.Tactic

/-!
# Runs of a machine

A machine takes one step per event; a run is the fold of its steps over a list of events. What is nondeterministic
in the system (what a request carries, which commit fails, what is drawn at random) is in the event.

* `Run.exec`: the state after a list of events.
* `Run.Meets`: every step of the run meets a condition on the state before it and on its event.
* `Run.exec_inv`: what every such step preserves, every such run preserves.
-/

namespace Run

variable {σ ε : Type*} (step : σ → ε → σ)

/-- The state after a list of events. -/
def exec (s : σ) (es : List ε) : σ := es.foldl step s

@[simp] theorem exec_nil (s : σ) : exec step s [] = s := rfl

@[simp] theorem exec_cons (s : σ) (e : ε) (es : List ε) : exec step s (e :: es) = exec step (step s e) es := rfl

theorem exec_append (s : σ) (es fs : List ε) : exec step s (es ++ fs) = exec step (exec step s es) fs :=
  List.foldl_append

/-- Every step of the run meets the condition, judged on the state before the step. -/
def Meets (P : σ → ε → Prop) : σ → List ε → Prop
  | _, [] => True
  | s, e :: es => P s e ∧ Meets P (step s e) es

instance Meets.decidable (P : σ → ε → Prop) [∀ s e, Decidable (P s e)] :
    ∀ s es, Decidable (Meets step P s es)
  | _, [] => inferInstanceAs (Decidable True)
  | s, e :: es =>
    have := Meets.decidable P (step s e) es
    inferInstanceAs (Decidable (P s e ∧ Meets step P (step s e) es))

variable {step} {P : σ → ε → Prop} {I : σ → Prop}

variable {es : List ε} {s : σ}

theorem meets_append {fs : List ε} :
    Meets step P s (es ++ fs) ↔ Meets step P s es ∧ Meets step P (exec step s es) fs := by
  induction es generalizing s with
  | nil => simp [Meets]
  | cons e es ih => simp only [List.cons_append, Meets, ih, exec_cons, and_assoc]

theorem meets_and {Q : σ → ε → Prop} :
    Meets step (fun s e => P s e ∧ Q s e) s es ↔ Meets step P s es ∧ Meets step Q s es := by
  induction es generalizing s with
  | nil => simp [Meets]
  | cons e es ih =>
    simp only [Meets, ih]
    tauto

/-- A condition on the events alone. -/
theorem meets_of_forall {Q : ε → Prop} (h : ∀ e ∈ es, Q e) (s : σ) : Meets step (fun _ e => Q e) s es := by
  induction es generalizing s with
  | nil => trivial
  | cons e es ih => exact ⟨h e (by simp), ih (fun e' he' => h e' (by simp [he'])) _⟩

/-- **Invariant rule.** What each step that meets the condition preserves holds after every run of such steps. -/
theorem exec_inv (hstep : ∀ s e, I s → P s e → I (step s e)) (hs : I s) (hmeets : Meets step P s es) :
    I (exec step s es) := by
  induction es generalizing s with
  | nil => exact hs
  | cons e es ih => exact ih (hstep s e hs hmeets.1) hmeets.2

/-- The invariant rule of a machine whose every step preserves. -/
theorem exec_inv_all (hstep : ∀ s e, I s → I (step s e)) (es : List ε) (hs : I s) : I (exec step s es) :=
  exec_inv (P := fun _ _ => True) (fun s e h _ => hstep s e h) hs (meets_of_forall (fun _ _ => trivial) s)

/-- What follows from an invariant that every step preserves holds at every step of a run. -/
theorem meets_of_inv (hstep : ∀ s e, I s → I (step s e)) (hmeets : ∀ s e, I s → P s e) (es : List ε) (hs : I s) :
    Meets step P s es := by
  induction es generalizing s with
  | nil => trivial
  | cons e es ih => exact ⟨hmeets s e hs, ih (hstep s e hs)⟩

end Run
