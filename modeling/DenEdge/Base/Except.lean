import Mathlib.Data.List.Basic
import Mathlib.Tactic

/-!
# Inversion of fallible computations

A transaction that may fail is a chain of binds and monadic folds in `Except`. `Except.bind_ok` peels one bind,
`Except.foldlM_ok` turns a fold that succeeded into an induction over the part of the list it has taken.
`Except.Ends` is the postcondition of a computation whose errors carry a state too.
-/

namespace Except

universe u v

variable {ε : Type u} {α β : Type v}
variable {x : Except ε α}

theorem bind_ok {f : α → Except ε β} {b : β} :
    (x >>= f) = .ok b ↔ ∃ a, x = .ok a ∧ f a = .ok b := by
  constructor
  · intro h
    cases x with
    | error e => cases h
    | ok a => exact ⟨a, rfl, h⟩
  · rintro ⟨a, rfl, h⟩
    exact h

@[simp] theorem ok_bind (a : α) (f : α → Except ε β) : ((.ok a : Except ε α) >>= f) = f a := rfl

theorem foldlM_append_singleton (f : β → α → Except ε β) (b : β) (l : List α) (a : α) :
    (l ++ [a]).foldlM f b = l.foldlM f b >>= fun r => f r a := by
  simp [List.foldlM_append]

/-- **Fold rule.** What holds of the start and is carried over each element taken holds of the result. -/
theorem foldlM_ok {f : β → α → Except ε β} {motive : List α → β → Prop} {b r : β} {l : List α}
    (h : l.foldlM f b = .ok r) (start : motive [] b)
    (carry : ∀ taken a b b', a ∈ l → taken ++ [a] <+: l → motive taken b → f b a = .ok b' →
      motive (taken ++ [a]) b') :
    motive l r := by
  induction l using List.reverseRecOn generalizing r with
  | nil =>
    cases h
    exact start
  | append_singleton l a ih =>
    rw [foldlM_append_singleton] at h
    obtain ⟨m, hm, hr⟩ := bind_ok.mp h
    refine carry l a m r (by simp) List.prefix_rfl (ih hm ?_) hr
    intro taken x b b' hx hpre
    exact carry taken x b b' (by simp [hx]) (hpre.trans (List.prefix_append _ _))

/-- What is kept of the results is what is kept of each element's own. -/
theorem mapM_filterMap {γ : Type*} {f : α → Except ε β} (g : β → Option γ) {l : List α} {l' : List β}
    (h : l.mapM f = .ok l') : l'.filterMap g = l.filterMap fun a => (f a).toOption.bind g := by
  induction l generalizing l' with
  | nil =>
    cases h
    rfl
  | cons a l ih =>
    rw [List.mapM_cons] at h
    obtain ⟨b, hb, hrest⟩ := bind_ok.mp h
    obtain ⟨bs, hbs, heq⟩ := bind_ok.mp hrest
    cases heq
    have hhead : (f a).toOption.bind g = g b := by rw [hb]; rfl
    rw [List.filterMap_cons, List.filterMap_cons, ih hbs, hhead]

/-- How a computation ends: with a value of `Q`, or with an error of `E`. -/
def Ends (E : ε → Prop) (Q : α → Prop) : Except ε α → Prop
  | .ok a => Q a
  | .error e => E e

variable {E : ε → Prop} {Q R : α → Prop}

@[simp] theorem ends_ok (a : α) : (.ok a : Except ε α).Ends E Q ↔ Q a := Iff.rfl

@[simp] theorem ends_error (e : ε) : (.error e : Except ε α).Ends E Q ↔ E e := Iff.rfl

theorem Ends.imp {E' : ε → Prop} (h : x.Ends E Q) (hE : ∀ e, E e → E' e) (hQ : ∀ a, Q a → R a) :
    x.Ends E' R := by
  cases x with
  | error e => exact hE e h
  | ok a => exact hQ a h

/-- **Sequencing.** What follows must end well from every value the first part may end with. -/
theorem Ends.bind {k : α → Except ε β} {S : β → Prop} (h : x.Ends E Q)
    (hk : ∀ a, Q a → (k a).Ends E S) : (x >>= k).Ends E S := by
  cases x with
  | error e => exact h
  | ok a => exact hk a h

end Except
