import Mathlib.Data.List.Basic
import Mathlib.Tactic

/-!
# Insertion-ordered maps

A map as its list of bindings in the order they were first set. Setting a bound key keeps its place.
-/

namespace List

variable {α : Type*} {P : α → Prop} {l : List α} {a : α}

theorem mem_snoc {b : α} : a ∈ l ++ [b] ↔ a ∈ l ∨ a = b := by
  rw [mem_append, mem_singleton]

theorem forall_mem_snoc (h : ∀ x ∈ l, P x) (ha : P a) : ∀ x ∈ l ++ [a], P x :=
  forall_mem_append.mpr ⟨h, forall_mem_singleton.mpr ha⟩

theorem nodup_map_snoc {β : Type*} {f : α → β} (h : (l.map f).Nodup) (ha : ∀ x ∈ l, f x ≠ f a) :
    ((l ++ [a]).map f).Nodup := by
  rw [map_append, nodup_append]
  refine ⟨h, nodup_singleton _, fun b hb c hc => ?_⟩
  obtain ⟨x, hx, rfl⟩ := mem_map.mp hb
  rw [mem_singleton.mp hc]
  exact ha x hx

theorem find?_of_nodup_map {β : Type*} [DecidableEq β] {f : α → β} (h : (l.map f).Nodup) (ha : a ∈ l) :
    l.find? (f · = f a) = some a := by
  have hsome : (l.find? (f · = f a)).isSome := find?_isSome.mpr ⟨a, ha, by simp⟩
  obtain ⟨b, hb⟩ := Option.isSome_iff_exists.mp hsome
  rw [hb, inj_on_of_nodup_map h (mem_of_find?_eq_some hb) ha (by simpa using find?_some hb)]

theorem forall_mem_set {i : ℕ} (h : ∀ x ∈ l, P x) (ha : P a) : ∀ x ∈ l.set i a, P x := by
  intro x hx
  rcases mem_or_eq_of_mem_set hx with hold | rfl
  · exact h x hold
  · exact ha

end List

namespace Assoc

variable {K V : Type*} [DecidableEq K]

def get (m : List (K × V)) (k : K) : Option V := (m.find? (·.1 = k)).map Prod.snd

def set (m : List (K × V)) (k : K) (v : V) : List (K × V) :=
  if m.any (·.1 = k) then m.map fun e => if e.1 = k then (k, v) else e else m ++ [(k, v)]

def erase (m : List (K × V)) (k : K) : List (K × V) := m.filter (·.1 ≠ k)

/-- A map from its bindings, a later one over an earlier one of the same key. -/
def ofList (l : List (K × V)) : List (K × V) := l.foldl (fun m e => set m e.1 e.2) []

@[simp] theorem get_nil (k : K) : get ([] : List (K × V)) k = none := rfl

theorem get_cons (e : K × V) (m : List (K × V)) (k : K) :
    get (e :: m) k = if e.1 = k then some e.2 else get m k := by
  unfold get
  by_cases h : e.1 = k <;> simp [h]

theorem get_append (m n : List (K × V)) (k : K) : get (m ++ n) k = (get m k).or (get n k) := by
  unfold get
  rw [List.find?_append]
  cases m.find? (·.1 = k) <;> simp

variable {k : K} {m : List (K × V)} {e : K × V} {v : V}

theorem get_eq_none : get m k = none ↔ ∀ e ∈ m, e.1 ≠ k := by
  simp [get, List.find?_eq_none]

theorem get_snoc_of_ne (h : k ≠ e.1) : get (m ++ [e]) k = get m k := by
  rw [get_append, get_cons, if_neg (Ne.symm h)]
  simp

theorem get_set (m : List (K × V)) (k k' : K) (v : V) :
    get (set m k v) k' = if k' = k then some v else get m k' := by
  unfold set
  split_ifs with hany hk hk
  · subst hk
    induction m with
    | nil => cases hany
    | cons e m ih =>
      rw [List.map_cons, get_cons]
      by_cases he : e.1 = k'
      · simp [he]
      · rw [if_neg he, if_neg he]
        exact ih (by simpa [he] using hany)
  · clear hany
    induction m with
    | nil => rfl
    | cons e m ih =>
      rw [List.map_cons, get_cons, get_cons, ih]
      by_cases he : e.1 = k
      · rw [if_pos he, if_neg (Ne.symm hk), he, if_neg (Ne.symm hk)]
      · rw [if_neg he]
  · subst hk
    rw [get_append]
    have hnone : get m k' = none :=
      get_eq_none.mpr fun e he hek => hany (List.any_eq_true.mpr ⟨e, he, by simp [hek]⟩)
    simp [hnone, get_cons]
  · exact get_snoc_of_ne hk

theorem get_of_set {k' : K} {v' : V} (h : get (set m k v) k' = some v') :
    k' = k ∧ v' = v ∨ k' ≠ k ∧ get m k' = some v' := by
  rw [get_set] at h
  split_ifs at h with hk
  · exact .inl ⟨hk, (Option.some.inj h).symm⟩
  · exact .inr ⟨hk, h⟩

theorem get_erase (m : List (K × V)) (k k' : K) : get (erase m k) k' = if k' = k then none else get m k' := by
  unfold erase
  split_ifs with hk
  · subst hk
    exact get_eq_none.mpr fun e he => by simpa using (List.mem_filter.mp he).2
  · induction m with
    | nil => rfl
    | cons e m ih =>
      by_cases he : e.1 = k
      · rw [List.filter_cons_of_neg (by simp [he]), ih, get_cons, if_neg (by rw [he]; exact Ne.symm hk)]
      · rw [List.filter_cons_of_pos (by simp [he]), get_cons, get_cons, ih]

theorem get_of_erase {k' : K} (h : get (erase m k) k' = some v) : get m k' = some v := by
  rw [get_erase] at h
  split_ifs at h
  exact h

/-- A map whose values are changed in place. -/
theorem get_map (m : List (K × V)) (f : K → V → V) (k : K) :
    get (m.map fun e => (e.1, f e.1 e.2)) k = (get m k).map (f k) := by
  induction m with
  | nil => rfl
  | cons e m ih =>
    rw [List.map_cons, get_cons, get_cons, ih]
    split_ifs with he
    · rw [← he]
      rfl
    · rfl

/-- A map without the keys that fail a test. -/
theorem get_filter_key (m : List (K × V)) (p : K → Bool) (k : K) :
    get (m.filter fun e => p e.1) k = if p k then get m k else none := by
  induction m with
  | nil => simp
  | cons e =>
    by_cases hp : p e.1 = true
    · rw [List.filter_cons, if_pos hp, get_cons, get_cons]
      split_ifs with he hk <;> simp_all
    · rw [List.filter_cons, if_neg hp, get_cons]
      split_ifs with hk he <;> simp_all

theorem get_foldl_erase (ks : List K) (m : List (K × V)) (k : K) :
    get (ks.foldl erase m) k = if k ∈ ks then none else get m k := by
  induction ks generalizing m with
  | nil => simp
  | cons k' ks ih =>
    rw [List.foldl_cons, ih, get_erase]
    split_ifs <;> simp_all

theorem get_of_mem (h : e ∈ m) : (get m e.1).isSome := by
  by_contra hnone
  rw [Bool.not_eq_true, Option.isSome_eq_false_iff, Option.isNone_iff_eq_none] at hnone
  exact get_eq_none.mp hnone e h rfl

theorem mem_of_get (h : get m k = some v) : (k, v) ∈ m := by
  unfold get at h
  obtain ⟨e, he, rfl⟩ := Option.map_eq_some_iff.mp h
  have hkey : e.1 = k := by simpa using List.find?_some he
  rw [← hkey]
  exact List.mem_of_find?_eq_some he

/-! ## Each key bound once -/

theorem keys_set (m : List (K × V)) (k : K) (v : V) (h : (m.map Prod.fst).Nodup) :
    ((set m k v).map Prod.fst).Nodup := by
  unfold set
  split_ifs with hany
  · have hkeys : (m.map fun e => if e.1 = k then (k, v) else e).map Prod.fst = m.map Prod.fst := by
      rw [List.map_map]
      refine List.map_congr_left fun e _ => ?_
      by_cases he : e.1 = k <;> simp [he]
    rw [hkeys]
    exact h
  · refine List.nodup_map_snoc h fun e he hek => ?_
    exact hany (List.any_eq_true.mpr ⟨e, he, by simp [hek]⟩)

theorem keys_ofList (l : List (K × V)) : ((ofList l).map Prod.fst).Nodup := by
  unfold ofList
  refine List.foldlRecOn (motive := fun m : List (K × V) => (m.map Prod.fst).Nodup) l _ ?_ fun m hm e _ => ?_
  · exact List.nodup_nil
  · exact keys_set m e.1 e.2 hm

theorem mem_set (h : e ∈ set m k v) : e ∈ m ∨ e = (k, v) := by
  unfold set at h
  split_ifs at h
  · obtain ⟨e', he', rfl⟩ := List.mem_map.mp h
    split_ifs
    · exact .inr rfl
    · exact .inl he'
  · simpa using h

theorem mem_ofList {l : List (K × V)} (h : e ∈ ofList l) : e ∈ l := by
  unfold ofList at h
  induction l using List.reverseRecOn with
  | nil => exact h
  | append_singleton l e' ih =>
    rw [List.foldl_append, List.foldl_cons] at h
    rcases mem_set h with hmem | rfl
    · exact List.mem_append_left _ (ih hmem)
    · exact List.mem_append_right _ (by simp)

omit [DecidableEq K] in
theorem keys_filter (p : K × V → Bool) (h : (m.map Prod.fst).Nodup) :
    ((m.filter p).map Prod.fst).Nodup := h.sublist (List.filter_sublist.map _)

theorem get_of_mem_nodup (h : (m.map Prod.fst).Nodup) (he : e ∈ m) : get m e.1 = some e.2 := by
  obtain ⟨v, hv⟩ := Option.isSome_iff_exists.mp (get_of_mem he)
  rw [hv, ← congrArg Prod.snd (List.inj_on_of_nodup_map h (mem_of_get hv) he rfl)]

theorem get_filter (h : (m.map Prod.fst).Nodup) (p : K × V → Bool) (k : K) :
    get (m.filter p) k = (get m k).filter fun v => p (k, v) := by
  cases hg : get m k with
  | none =>
    exact get_eq_none.mpr fun e he => get_eq_none.mp hg e (List.mem_of_mem_filter he)
  | some v =>
    by_cases hp : p (k, v) = true
    · have hkeep : (some v).filter (fun v => p (k, v)) = some v := by simp [hp]
      rw [hkeep]
      exact get_of_mem_nodup (keys_filter p h) (e := (k, v)) (List.mem_filter.mpr ⟨mem_of_get hg, hp⟩)
    · have hdrop : (some v).filter (fun v => p (k, v)) = none := by simp [hp]
      rw [hdrop]
      refine get_eq_none.mpr fun e he hek => hp ?_
      have hmem := List.mem_filter.mp he
      have hsame : e = (k, v) := List.inj_on_of_nodup_map h hmem.1 (mem_of_get hg) hek
      rw [← hsame]
      exact hmem.2

theorem keys_erase (m : List (K × V)) (k : K) (h : (m.map Prod.fst).Nodup) : ((erase m k).map Prod.fst).Nodup :=
  keys_filter _ h

/-! ## Totals -/

/-- What the bindings of a map weigh together. -/
def total (weight : K → V → ℕ) (m : List (K × V)) : ℕ := (m.map fun e => weight e.1 e.2).sum

/-- What the binding of one key weighs; nothing where there is none. -/
def weightAt (weight : K → V → ℕ) (m : List (K × V)) (k : K) : ℕ := ((get m k).map (weight k)).getD 0

section

variable (weight : K → V → ℕ)

theorem weightAt_some (h : get m k = some v) : weightAt weight m k = weight k v := by
  simp [weightAt, h]

theorem weightAt_none (h : get m k = none) : weightAt weight m k = 0 := by
  simp [weightAt, h]

omit [DecidableEq K] in
theorem total_cons (e : K × V) (m : List (K × V)) :
    total weight (e :: m) = weight e.1 e.2 + total weight m := by
  simp [total]

theorem weightAt_cons (e : K × V) (m : List (K × V)) (k : K) :
    weightAt weight (e :: m) k = if e.1 = k then weight k e.2 else weightAt weight m k := by
  unfold weightAt
  rw [get_cons]
  split_ifs <;> simp

theorem weightAt_of_not_mem (h : k ∉ m.map Prod.fst) : weightAt weight m k = 0 := by
  have hnone : get m k = none := by
    refine get_eq_none.mpr ?_
    rintro e he rfl
    exact h (List.mem_map_of_mem he)
  simp [weightAt, hnone]

/-- Unbinding a key takes off what it weighed. -/
theorem total_erase (h : (m.map Prod.fst).Nodup) (k : K) :
    total weight (erase m k) + weightAt weight m k = total weight m := by
  induction m with
  | nil => rfl
  | cons e m ih =>
    rw [List.map_cons, List.nodup_cons] at h
    have hrest := ih h.2
    rw [weightAt_cons, total_cons]
    by_cases he : e.1 = k
    · subst he
      -- the key is bound once, so nothing else of the map goes
      have hkeep : erase (e :: m) e.1 = erase m e.1 := by simp [erase]
      have hzero := weightAt_of_not_mem weight h.1
      rw [if_pos rfl, hkeep]
      omega
    · have hkeep : erase (e :: m) k = e :: erase m k := by simp [erase, he]
      rw [if_neg he, hkeep, total_cons]
      omega

theorem weightAt_le_total (h : (m.map Prod.fst).Nodup) (k : K) :
    weightAt weight m k ≤ total weight m := by
  have := total_erase weight h k
  omega

end

theorem set_cons_of_ne (he : e.1 ≠ k) (m : List (K × V)) (v : V) : set (e :: m) k v = e :: set m k v := by
  unfold set
  by_cases hany : m.any (·.1 = k) = true <;> simp_all

theorem set_cons_of_eq (h : e.1 ∉ m.map Prod.fst) (v : V) : set (e :: m) e.1 v = (e.1, v) :: m := by
  have hrest : (m.map fun e' => if e'.1 = e.1 then (e.1, v) else e') = m := by
    refine (List.map_congr_left fun e' he' => ?_).trans (List.map_id _)
    have hne : e'.1 ≠ e.1 := fun heq => h (heq ▸ List.mem_map_of_mem he')
    simp [hne]
  simp [set, hrest]

/-- A key that is bound twice is bound the second time. -/
theorem set_set (m : List (K × V)) (k : K) (v w : V) : set (set m k v) k w = set m k w := by
  by_cases hany : m.any (·.1 = k) = true
  · have hset : set m k v = m.map fun e => if e.1 = k then (k, v) else e := by rw [set, if_pos hany]
    have hset' : set m k w = m.map fun e => if e.1 = k then (k, w) else e := by rw [set, if_pos hany]
    have hany' : (m.map fun e => if e.1 = k then (k, v) else e).any (·.1 = k) = true := by
      obtain ⟨e, he, hek⟩ := List.any_eq_true.mp hany
      refine List.any_eq_true.mpr ⟨_, List.mem_map_of_mem he, ?_⟩
      simp_all
    rw [hset, hset', set, if_pos hany', List.map_map]
    refine List.map_congr_left fun e _ => ?_
    by_cases he : e.1 = k <;> simp [he]
  · have hset : set m k v = m ++ [(k, v)] := by rw [set, if_neg hany]
    have hset' : set m k w = m ++ [(k, w)] := by rw [set, if_neg hany]
    have hrest : (m.map fun e => if e.1 = k then (k, w) else e) = m := by
      refine (List.map_congr_left fun e he => if_neg fun hek => hany ?_).trans (List.map_id m)
      exact List.any_eq_true.mpr ⟨e, he, by simp [hek]⟩
    rw [hset, hset', set, List.map_append, hrest]
    simp

/-- Binding a key puts what it weighs in place of what it weighed. -/
theorem total_set (weight : K → V → ℕ) (h : (m.map Prod.fst).Nodup) (k : K) (v : V) :
    total weight (set m k v) + weightAt weight m k = total weight m + weight k v := by
  induction m with
  | nil => simp [set, total, weightAt]
  | cons e m ih =>
    rw [List.map_cons, List.nodup_cons] at h
    have hrest := ih h.2
    by_cases he : e.1 = k
    · subst he
      rw [set_cons_of_eq h.1, total_cons, total_cons, weightAt_cons, if_pos rfl]
      dsimp only
      omega
    · rw [set_cons_of_ne he, total_cons, total_cons, weightAt_cons, if_neg he]
      omega

omit [DecidableEq K] in
theorem total_congr {weight weight' : K → V → ℕ} (h : ∀ e ∈ m, weight' e.1 e.2 = weight e.1 e.2) :
    total weight' m = total weight m := by
  unfold total
  rw [List.map_congr_left h]

/-- Where only the binding of one key weighs otherwise than before. -/
theorem total_update (weight weight' : K → V → ℕ) (hm : (m.map Prod.fst).Nodup) (k : K)
    (h : ∀ e ∈ m, e.1 ≠ k → weight' e.1 e.2 = weight e.1 e.2) :
    total weight' m + weightAt weight m k = total weight m + weightAt weight' m k := by
  have hrest : total weight' (erase m k) = total weight (erase m k) := by
    refine total_congr fun e he => ?_
    have hmem := List.mem_filter.mp he
    exact h e hmem.1 (by simpa using hmem.2)
  have h₁ := total_erase weight hm k
  have h₂ := total_erase weight' hm k
  omega

/-- Binding a key to what it is bound to changes nothing. -/
theorem set_get (hm : (m.map Prod.fst).Nodup) (h : get m k = some v) : set m k v = m := by
  induction m with
  | nil => cases h
  | cons e m ih =>
    rw [List.map_cons, List.nodup_cons] at hm
    rw [get_cons] at h
    by_cases he : e.1 = k
    · subst he
      rw [if_pos rfl] at h
      rw [set_cons_of_eq hm.1, ← Option.some.inj h]
    · rw [if_neg he] at h
      rw [set_cons_of_ne he, ih hm.2 h]

/-- What elements are bound to, where each is bound under its own key: the first of a key decides. -/
theorem get_filterMap {α : Type*} (key : α → K) {f : α → Option (K × V)} {l : List α}
    (hkey : ∀ a ∈ l, ∀ e, f a = some e → e.1 = key a) {a : α} (ha : l.find? (key · = k) = some a)
    (hf : f a = some (k, v)) : get (l.filterMap f) k = some v := by
  induction l with
  | nil => cases ha
  | cons b l ih =>
    by_cases hb : key b = k
    · rw [List.find?_cons_of_pos (by simpa using hb)] at ha
      cases ha
      rw [List.filterMap_cons_some hf, get_cons, if_pos rfl]
    · rw [List.find?_cons_of_neg (by simpa using hb)] at ha
      have hrest := ih (fun a ha' => hkey a (List.mem_cons_of_mem _ ha')) ha
      cases hfb : f b with
      | none => rw [List.filterMap_cons_none hfb, hrest]
      | some e =>
        have hne : e.1 ≠ k := fun heq => hb ((hkey b (by simp) e hfb).symm.trans heq)
        rw [List.filterMap_cons_some hfb, get_cons, if_neg hne, hrest]

/-- A map from its bindings binds each key to the last of them. -/
theorem get_ofList (l : List (K × V)) (k : K) : get (ofList l) k = get l.reverse k := by
  unfold ofList
  induction l using List.reverseRecOn with
  | nil => rfl
  | append_singleton l e ih =>
    rw [List.foldl_append, List.foldl_cons, List.foldl_nil, get_set, ih, List.reverse_append,
      List.reverse_singleton, List.singleton_append, get_cons]
    by_cases hk : k = e.1
    · simp [hk]
    · rw [if_neg hk, if_neg (Ne.symm hk)]

end Assoc
