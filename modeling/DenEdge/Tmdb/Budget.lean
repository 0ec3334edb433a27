import DenEdge.Base.Run
import Mathlib.Data.List.Count

/-!
# The daily allowance of questions to TMDB

A question spends one of the day's allowance when it is sent, and gives it back if TMDB answers that nothing
changed. One pair of numbers is kept: the day, and what was spent of it. A refusal puts the count one past the
maximum, so that the log says it once; a unit is given back to whatever day it is then.
-/

namespace DenEdge.Tmdb

def DAY_MS : ℕ := 86400000

structure Budget where
  /-- The day, and what was spent of it. -/
  spent : ℕ × ℕ
  clock : ℕ
  /-- The day of each question that was sent, and not answered that nothing changed. -/
  out : List ℕ

def Budget.init : Budget := ⟨(0, 0), 0, []⟩

/-- One is taken from the day's allowance, or the question is refused. The count is an unsigned number of 32 bits.
-/
def spend (daily : Option ℕ) (spent : ℕ × ℕ) (now : ℕ) : Bool × (ℕ × ℕ) :=
  match daily with
  | none => (true, spent)
  | some max =>
    let spent := if spent.1 ≠ now / DAY_MS then (now / DAY_MS, 0) else spent
    if max ≤ spent.2 then (false, if spent.2 = max then (spent.1, (max + 1) % 2 ^ 32) else spent)
    else (true, (spent.1, spent.2 + 1))

def refund (daily : Option ℕ) (spent : ℕ × ℕ) : ℕ × ℕ := if daily.isSome then (spent.1, spent.2 - 1) else spent

/-- A question is asked; one of some day is answered that nothing changed. Other answers change nothing here. -/
inductive Event where
  | ask (now : ℕ)
  | unchanged (day now : ℕ)

def step (daily : Option ℕ) (s : Budget) : Event → Budget
  | .ask now =>
    match spend daily s.spent now with
    | (true, spent) => ⟨spent, now, now / DAY_MS :: s.out⟩
    | (false, spent) => ⟨spent, now, s.out⟩
  | .unchanged day now => if day ∈ s.out then ⟨refund daily s.spent, now, s.out.erase day⟩ else s

/-- Time does not run backwards, and a unit comes back on its day, before a question is refused that day. -/
def Prompt (max : ℕ) (s : Budget) : Event → Prop
  | .ask now => s.clock ≤ now
  | .unchanged day now => s.clock ≤ now ∧ day = now / DAY_MS ∧ s.spent.2 ≤ max

instance (max : ℕ) (s : Budget) (e : Event) : Decidable (Prompt max s e) := by
  cases e <;> unfold Prompt <;> infer_instance

/-- The count is that of the units of its day that are out, or one past the maximum where they all are. -/
structure Counts (max : ℕ) (s : Budget) : Prop where
  count : s.out.count s.spent.1 = s.spent.2 ∨ s.out.count s.spent.1 = max ∧ s.spent.2 = max + 1
  le : ∀ day, s.out.count day ≤ max
  days : ∀ day ∈ s.out, day ≤ s.spent.1
  today : s.spent.1 ≤ s.clock / DAY_MS

variable {max now : ℕ} {s : Budget}

/-- On a new day nothing is out yet. -/
theorem Counts.renew (h : Counts max s) (hclock : s.clock ≤ now) :
    ∃ n, (if s.spent.1 ≠ now / DAY_MS then (now / DAY_MS, 0) else s.spent) = (now / DAY_MS, n) ∧
      (s.out.count (now / DAY_MS) = n ∨ s.out.count (now / DAY_MS) = max ∧ n = max + 1) := by
  by_cases hday : s.spent.1 ≠ now / DAY_MS
  · have hle : s.clock / DAY_MS ≤ now / DAY_MS := Nat.div_le_div_right hclock
    have hnone : now / DAY_MS ∉ s.out := by
      intro hmem
      have hout := h.days _ hmem
      have htoday := h.today
      omega
    exact ⟨0, if_pos hday, .inl (List.count_eq_zero.mpr hnone)⟩
  · have hsame : s.spent.1 = now / DAY_MS := not_not.mp hday
    refine ⟨s.spent.2, ?_, hsame ▸ h.count⟩
    rw [if_neg hday, ← hsame]

theorem Counts.ask (h : Counts max s) (hmax : max + 1 < 2 ^ 32) (hclock : s.clock ≤ now) :
    Counts max (step (some max) s (.ask now)) := by
  obtain ⟨n, hspent, hcount⟩ := h.renew hclock
  have hdays : ∀ day ∈ s.out, day ≤ now / DAY_MS := by
    intro day hday
    exact ((h.days day hday).trans h.today).trans (Nat.div_le_div_right hclock)
  simp only [step, spend, hspent]
  split_ifs with hfull hlast
  · -- the first refusal of the day
    have hall : s.out.count (now / DAY_MS) = max := by omega
    exact ⟨.inr ⟨hall, Nat.mod_eq_of_lt hmax⟩, h.le, hdays, le_rfl⟩
  · exact ⟨hcount, h.le, hdays, le_rfl⟩
  · refine ⟨.inl ?_, fun day => ?_, ?_, le_rfl⟩
    · dsimp only
      rw [List.count_cons_self]
      omega
    · have hle := h.le day
      dsimp only
      rw [List.count_cons]
      split_ifs with hday
      · rw [beq_iff_eq] at hday
        subst hday
        omega
      · exact hle
    · exact List.forall_mem_cons.mpr ⟨le_rfl, hdays⟩

theorem Counts.unchanged (h : Counts max s) {day : ℕ} (hprompt : Prompt max s (.unchanged day now)) :
    Counts max (step (some max) s (.unchanged day now)) := by
  obtain ⟨hclock, hday, hle⟩ := hprompt
  have htoday : s.spent.1 ≤ now / DAY_MS := h.today.trans (Nat.div_le_div_right hclock)
  simp only [step]
  split_ifs with hmem
  · -- the unit's day is the day of the count
    have hsame : day = s.spent.1 := by
      have hle := h.days day hmem
      omega
    have hcount := h.count
    have hpos : 0 < s.out.count s.spent.1 := List.count_pos_iff.mpr (hsame ▸ hmem)
    refine ⟨.inl ?_, fun day' => (List.erase_sublist.count_le _).trans (h.le day'), ?_, htoday⟩
    · simp only [refund, Option.isSome_some, if_true, hsame, List.count_erase_self]
      omega
    · exact fun day' hmem' => h.days day' (List.mem_of_mem_erase hmem')
  · exact h

end DenEdge.Tmdb
