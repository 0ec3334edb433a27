import DenEdge.Base.Run
import Mathlib.Data.List.Nodup

/-!
# A selection's titles, a page at a time

A loader asks atlas for the titles of a selection by their place in its list, and gives each title once. If the
list's order changes, it starts again from the top; a page of titles that were all given before is passed over. A
page whose read failed is asked again, and then by its number.
-/

namespace DenEdge.Titles

def TITLES_PAGE : ℕ := 24

variable {T O : Type} [DecidableEq T] [DecidableEq O]

/-- The titles of a page that were not given yet, each once. -/
def fresh (given : List T) : List T → List T
  | [] => []
  | t :: titles => if t ∈ given then fresh given titles else t :: fresh (t :: given) titles

/-- What a call waits for: a page, or the first page of a list in another order. -/
inductive Read where
  | page
  | restart

structure Loader (T O : Type) where
  order : Option O
  offset : ℕ
  last : ℕ
  given : List T
  call : Option Read
  /-- What the calls answered, in their order. -/
  answers : List (List T)

def Loader.init : Loader T O := ⟨none, 0, 0, [], none, []⟩

/-- The answer of a read: the page at the offset of the list in an order. -/
def Loader.take (list : O → List T) (s : Loader T O) (o : O) : Loader T O :=
  let titles := ((list o).drop s.offset).take TITLES_PAGE
  let new := fresh s.given titles
  let s := { s with order := some o, offset := s.offset + TITLES_PAGE, given := new.reverse ++ s.given }
  if new ≠ [] ∨ titles = [] then { s with call := none, answers := s.answers ++ [new] }
  else { s with call := some .page }

/-- The next page is asked for, or the one that failed; a read fails, or is answered in some order. -/
inductive Event (O : Type) where
  | ask
  | fail
  | read (o : O)

def step (list : O → List T) (s : Loader T O) : Event O → Loader T O
  | .ask =>
    let page := s.answers.length + 1
    if s.call.isSome then s
    else { s with
      offset := if page ≠ s.last + 1 then (page - 1) * TITLES_PAGE else s.offset
      last := page
      call := some .page }
  | .fail => { s with call := none }
  | .read o =>
    match s.call with
    | none => s
    | some .page =>
      if s.order.isSome ∧ s.order ≠ some o then { s with offset := 0, call := some .restart } else s.take list o
    | some .restart => s.take list o

/-- A page is asked for again only where the titles before it were read: since no restart, that is. -/
def Level (s : Loader T O) : Event O → Prop
  | .ask => s.answers.length + 1 ≠ s.last + 1 → s.answers.length * TITLES_PAGE ≤ s.offset
  | _ => True

instance (s : Loader T O) (e : Event O) : Decidable (Level s e) := by
  cases e <;> unfold Level <;> infer_instance

theorem mem_fresh {given titles : List T} {t : T} : t ∈ fresh given titles ↔ t ∈ titles ∧ t ∉ given := by
  fun_induction fresh given titles with
  | case1 => simp
  | case2 given u titles hu ih =>
    rw [ih, List.mem_cons]
    constructor
    · exact fun ⟨ht, hnot⟩ => ⟨.inr ht, hnot⟩
    · rintro ⟨rfl | ht, hnot⟩
      · exact absurd hu hnot
      · exact ⟨ht, hnot⟩
  | case3 given u titles hu ih =>
    rw [List.mem_cons, ih, List.mem_cons, List.mem_cons]
    by_cases heq : t = u
    · simp [heq, hu]
    · simp [heq]

theorem fresh_nodup (given titles : List T) : (fresh given titles).Nodup := by
  fun_induction fresh given titles with
  | case1 => exact List.nodup_nil
  | case2 _ _ _ _ ih => exact ih
  | case3 given u titles hu ih =>
    refine List.nodup_cons.mpr ⟨fun hmem => ?_, ih⟩
    exact (mem_fresh.mp hmem).2 List.mem_cons_self

/-- What was given was given once, and of the list in the loader's order it is all that is before the offset. -/
structure Paged (list : O → List T) (s : Loader T O) : Prop where
  given : ∀ t, t ∈ s.given ↔ t ∈ s.answers.flatten
  nodup : s.answers.flatten.Nodup
  start : s.order = none → s.offset = 0
  read : ∀ o, s.order = some o → ∀ t ∈ (list o).take s.offset, t ∈ s.given
  restart : s.call = some .restart → s.offset = 0

variable {list : O → List T} {s : Loader T O} {o : O}

omit [DecidableEq O] in
/-- All titles of the list before the next page were given once the page is taken. -/
theorem Paged.taken (h : Paged list s) (hbefore : ∀ t ∈ (list o).take s.offset, t ∈ s.given) :
    Paged list (s.take list o) := by
  unfold Loader.take
  dsimp only
  set titles := ((list o).drop s.offset).take TITLES_PAGE
  have horder : ∀ o', some o = some o' →
      ∀ t ∈ (list o').take (s.offset + TITLES_PAGE), t ∈ (fresh s.given titles).reverse ++ s.given := by
    rintro o' ⟨⟩ t ht
    rw [List.take_add, List.mem_append] at ht
    rw [List.mem_append, List.mem_reverse, mem_fresh]
    rcases ht with hold | hnew
    · exact .inr (hbefore t hold)
    · exact (em (t ∈ s.given)).symm.imp_left fun hnot => ⟨hnew, hnot⟩
  split_ifs with hanswers
  · refine ⟨fun t => ?_, ?_, nofun, horder, nofun⟩
    · rw [List.flatten_append, List.mem_append, List.mem_append, List.mem_reverse, h.given, or_comm]
      simp
    · rw [List.flatten_append, List.flatten_singleton, List.nodup_append]
      refine ⟨h.nodup, fresh_nodup _ _, fun t ht u hu heq => ?_⟩
      exact (mem_fresh.mp hu).2 (heq ▸ (h.given t).mpr ht)
  · have hnone : fresh s.given titles = [] := by tauto
    rw [hnone] at horder ⊢
    exact ⟨h.given, h.nodup, nofun, horder, nofun⟩

/-- A read changes no answer, or its page is taken at a place before which all was given. -/
theorem Paged.read_cases (h : Paged list s) (o : O) :
    (step list s (.read o)).answers = s.answers ∧ Paged list (step list s (.read o)) ∨
      step list s (.read o) = s.take list o ∧ ∀ t ∈ (list o).take s.offset, t ∈ s.given := by
  simp only [step]
  split
  · exact .inl ⟨rfl, h⟩
  · split_ifs with hother
    · refine .inl ⟨rfl, h.given, h.nodup, fun _ => rfl, fun o' _ t ht => ?_, fun _ => rfl⟩
      simp at ht
    · refine .inr ⟨rfl, fun t ht => ?_⟩
      cases horder : s.order with
      | none => simp [h.start horder] at ht
      | some o' =>
        have hsame : o' = o := by simpa [horder] using hother
        exact h.read o' horder t (hsame ▸ ht)
  · rename_i hcall
    refine .inr ⟨rfl, fun t ht => ?_⟩
    simp [h.restart hcall] at ht

theorem step_paged (h : Paged list s) {e : Event O} (hlevel : Level s e) : Paged list (step list s e) := by
  cases e with
  | ask =>
    simp only [step]
    split_ifs with hcall hagain
    · exact h
    · -- asked again, by its number, which is not past what was read
      have hle : s.answers.length * TITLES_PAGE ≤ s.offset := hlevel hagain
      refine ⟨h.given, h.nodup, fun hnone => ?_, fun o ho t ht => ?_, nofun⟩
      · have hzero := h.start hnone
        simp only [Nat.add_sub_cancel]
        omega
      · exact h.read o ho t (List.take_subset_take_left _ hle ht)
    · exact ⟨h.given, h.nodup, h.start, h.read, nofun⟩
  | fail => exact ⟨h.given, h.nodup, h.start, h.read, nofun⟩
  | read o =>
    rcases h.read_cases o with ⟨-, hsame⟩ | ⟨htake, hbefore⟩
    · exact hsame
    · rw [htake]
      exact h.taken hbefore

/-- **Paging a selection gives every title once**, in every run in which a page is asked for again only while no
restart has put the loader back before it: no title is given twice; a call answers an empty page only if atlas
did; and then every title of the list in its last order was given. -/
theorem paging_gives_all (list : O → List T) (es : List (Event O))
    (hmeets : Run.Meets (step list) Level Loader.init es) : let s := Run.exec (step list) Loader.init es
    s.answers.flatten.Nodup ∧ ∀ o, (step list s (.read o)).answers = s.answers ++ [[]] →
      ((list o).drop s.offset).take TITLES_PAGE = [] ∧ ∀ t ∈ list o, t ∈ s.answers.flatten := by
  intro s
  have hpaged : Paged list s := by
    refine Run.exec_inv (I := Paged list) (fun _ _ h hlevel => step_paged h hlevel)
      ⟨?_, ?_, fun _ => rfl, nofun, nofun⟩ hmeets
    · simp [Loader.init]
    · exact List.nodup_nil
  refine ⟨hpaged.nodup, fun o hend => ?_⟩
  rcases hpaged.read_cases o with ⟨hsame, -⟩ | ⟨htake, hbefore⟩
  · simp [hsame] at hend
  · have hempty : ((list o).drop s.offset).take TITLES_PAGE = [] := by
      rw [htake] at hend
      unfold Loader.take at hend
      dsimp only at hend
      split_ifs at hend with hanswers
      · rw [List.append_cancel_left_eq, List.singleton_inj] at hend
        exact hanswers.resolve_left (not_not.mpr hend)
      · simp at hend
    refine ⟨hempty, fun t ht => (hpaged.given t).mp (hbefore t ?_)⟩
    -- the page is empty, so the list ends before it
    have hlen : (list o).length ≤ s.offset := by
      rcases List.take_eq_nil_iff.mp hempty with hzero | hdrop
      · cases hzero
      · exact List.drop_eq_nil_iff.mp hdrop
    rwa [List.take_of_length_le hlen]

/-- A list of sixty titles. -/
def sampleList (order : ℕ) : List ℕ := (List.range 60).map (order * 100 + ·)

theorem paging_gives_all_sixty :
    sampleList 0 ⊆ (Run.exec (step sampleList) Loader.init
      [.ask, .read 0, .ask, .fail, .ask, .read 0, .ask, .read 0, .ask]).answers.flatten :=
  ((paging_gives_all sampleList [.ask, .read 0, .ask, .fail, .ask, .read 0, .ask, .read 0, .ask]
    (by decide +kernel)).2 0 (by decide +kernel)).2

/-- **A page asked again after a restart is skipped to.** The list changes before the second page, and the third
fails once: it is then read from its number on, and what lies between is never given. -/
theorem page_after_restart_is_lost :
    let s := Run.exec (step sampleList) Loader.init
      [.ask, .read 0, .ask, .read 1, .read 1, .ask, .fail, .ask, .read 1, .ask]
    (step sampleList s (.read 1)).answers = s.answers ++ [[]] ∧ 130 ∈ sampleList 1 ∧ 130 ∉ s.answers.flatten := by
  decide +kernel

end DenEdge.Titles
