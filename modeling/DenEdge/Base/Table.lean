import Mathlib.Data.List.Sort
import Mathlib.Data.List.Perm.Basic
import Mathlib.Algebra.BigOperators.Group.List.Basic
import Mathlib.Tactic

/-!
# Ordered tables

A `Table K V` is what an ordered key-value store keeps in one table: bindings with distinct keys, iterated in
the order of the keys. The strict order of the entries is a field, so every table that can be built iterates in
order and answers one value per key.

* `Table.get`, `Table.insert`, `Table.remove`: the operations of a store.
* `Table.ext_get`: a table is its answers.
* `Table.total`: the sum of a measure over the bindings, with what `insert` and `remove` do to it.
* `Table.above`: the bindings strictly above a key, in order.
-/

variable {K V : Type*} [LinearOrder K]

/-- Bindings in strictly increasing order of their keys. -/
structure Table (K V : Type*) [LinearOrder K] where
  entries : List (K × V)
  sorted : entries.Pairwise (fun a b => a.1 < b.1)

namespace Table

/-- The empty table. -/
def empty : Table K V := ⟨[], List.Pairwise.nil⟩

instance : Inhabited (Table K V) := ⟨empty⟩

instance [DecidableEq V] : DecidableEq (Table K V) := fun a b =>
  decidable_of_iff (a.entries = b.entries)
    ⟨fun h => by cases a; cases b; cases h; rfl, fun h => h ▸ rfl⟩

/-- The value bound to a key. -/
def get (t : Table K V) (k : K) : Option V := t.entries.lookup k

/-- How many keys are bound. -/
def len (t : Table K V) : ℕ := t.entries.length

/-- One pass over the entries: before the first larger key, or in the place of the same key. -/
def insertEntry (k : K) (v : V) : List (K × V) → List (K × V)
  | [] => [(k, v)]
  | e :: rest =>
    if k < e.1 then (k, v) :: e :: rest
    else if e.1 < k then e :: insertEntry k v rest
    else (k, v) :: rest

/-- The entries of other keys. -/
def eraseKey (k : K) (l : List (K × V)) : List (K × V) := l.filter (fun e => e.1 ≠ k)

variable {k : K} {l : List (K × V)} {v : V}

theorem mem_eraseKey {e : K × V} : e ∈ eraseKey k l ↔ e ∈ l ∧ e.1 ≠ k := by
  simp [eraseKey]

/-- On sorted entries, insertion is erasure of the key and one new binding, up to order. -/
theorem insertEntry_perm (h : l.Pairwise (fun a b => a.1 < b.1)) :
    (insertEntry k v l).Perm ((k, v) :: eraseKey k l) := by
  induction l with
  | nil => exact List.Perm.refl _
  | cons e rest ih =>
    have hrest : ∀ a ∈ rest, e.1 < a.1 := fun a ha => List.rel_of_pairwise_cons h ha
    have keep : ∀ {m : List (K × V)}, (∀ a ∈ m, a.1 ≠ k) → eraseKey k m = m := fun hm =>
      List.filter_eq_self.mpr fun a ha => by simpa using hm a ha
    rw [insertEntry]
    split_ifs with hlt hgt
    · -- the new key is below every entry: nothing is erased
      rw [keep]
      exact List.forall_mem_cons.mpr ⟨ne_of_gt hlt, fun a ha => ne_of_gt (hlt.trans (hrest a ha))⟩
    · have hne : e.1 ≠ k := ne_of_lt hgt
      have herase : eraseKey k (e :: rest) = e :: eraseKey k rest := by simp [eraseKey, hne]
      rw [herase]
      exact ((ih h.of_cons).cons e).trans (List.Perm.swap _ _ _)
    · have heq : e.1 = k := le_antisymm (not_lt.mp hlt) (not_lt.mp hgt)
      have herase : eraseKey k (e :: rest) = eraseKey k rest := by simp [eraseKey, heq]
      rw [herase, keep]
      intro a ha
      exact ne_of_gt (heq ▸ hrest a ha)

theorem insertEntry_sorted (h : l.Pairwise (fun a b => a.1 < b.1)) :
    (insertEntry k v l).Pairwise (fun a b => a.1 < b.1) := by
  induction l with
  | nil => exact List.pairwise_singleton _ _
  | cons e rest ih =>
    have hrest : ∀ a ∈ rest, e.1 < a.1 := fun a ha => List.rel_of_pairwise_cons h ha
    rw [insertEntry]
    split_ifs with hlt hgt
    · exact h.cons (List.forall_mem_cons.mpr ⟨hlt, fun a ha => hlt.trans (hrest a ha)⟩)
    · refine (ih h.of_cons).cons fun a ha => ?_
      rcases List.mem_cons.mp ((insertEntry_perm h.of_cons).subset ha) with rfl | ha
      · exact hgt
      · exact hrest a (mem_eraseKey.mp ha).1
    · have heq : e.1 = k := le_antisymm (not_lt.mp hlt) (not_lt.mp hgt)
      exact h.of_cons.cons fun a ha => heq ▸ hrest a ha

/-- Bind a key, replacing the binding it had. -/
def insert (t : Table K V) (k : K) (v : V) : Table K V :=
  ⟨insertEntry k v t.entries, insertEntry_sorted t.sorted⟩

/-- Unbind a key. -/
def remove (t : Table K V) (k : K) : Table K V :=
  ⟨eraseKey k t.entries, t.sorted.filter _⟩

/-- The bindings strictly above a key, in order. -/
def above (t : Table K V) (k : K) : List (K × V) := t.entries.filter (fun e => k < e.1)

/-- The sum of a measure over the bindings. -/
def total (f : K → V → ℕ) (t : Table K V) : ℕ := (t.entries.map (fun e => f e.1 e.2)).sum

/-! ## Answers -/

theorem lookup_iff_mem (h : l.Pairwise (fun a b => a.1 < b.1)) : l.lookup k = some v ↔ (k, v) ∈ l := by
  induction l with
  | nil => simp
  | cons e rest ih =>
    have hrest : ∀ a ∈ rest, e.1 < a.1 := fun a ha => List.rel_of_pairwise_cons h ha
    obtain ⟨k', v'⟩ := e
    by_cases hk : k = k'
    · subst hk
      have hnot : (k, v) ∉ rest := fun hm => lt_irrefl k (hrest _ hm)
      simp [hnot, eq_comm]
    · have hbeq : (k == k') = false := by simpa using hk
      simp [List.lookup_cons, hbeq, ih h.of_cons, hk]

variable {t : Table K V}

theorem get_eq_some : t.get k = some v ↔ (k, v) ∈ t.entries :=
  lookup_iff_mem t.sorted

theorem get_eq_none : t.get k = none ↔ ∀ v, (k, v) ∉ t.entries := by
  constructor
  · intro h v hv
    simp [get_eq_some.mpr hv] at h
  · intro h
    by_contra hne
    obtain ⟨v, hv⟩ := Option.ne_none_iff_exists'.mp hne
    exact h v (get_eq_some.mp hv)

@[simp] theorem get_empty (k : K) : (empty : Table K V).get k = none := rfl

theorem mem_insert {e : K × V} : e ∈ (t.insert k v).entries ↔ e = (k, v) ∨ (e ∈ t.entries ∧ e.1 ≠ k) := by
  rw [insert, (insertEntry_perm t.sorted).mem_iff, List.mem_cons, mem_eraseKey]

@[simp] theorem get_insert_self (t : Table K V) (k : K) (v : V) : (t.insert k v).get k = some v :=
  get_eq_some.mpr (mem_insert.mpr (Or.inl rfl))

theorem get_insert_of_ne {k' : K} (h : k' ≠ k) : (t.insert k v).get k' = t.get k' := by
  ext w
  rw [get_eq_some, get_eq_some, mem_insert]
  simp [h]

theorem get_insert (t : Table K V) (k k' : K) (v : V) :
    (t.insert k v).get k' = if k' = k then some v else t.get k' := by
  split_ifs with h
  · rw [h, get_insert_self]
  · exact get_insert_of_ne h

theorem get_remove (t : Table K V) (k k' : K) :
    (t.remove k).get k' = if k' = k then none else t.get k' := by
  ext w
  rw [get_eq_some, remove, mem_eraseKey]
  split_ifs with h
  · simp [h]
  · simp [get_eq_some, h]

/-- **A table is its answers.** -/
theorem ext_get {u : Table K V} (h : ∀ k, t.get k = u.get k) : t = u := by
  have hmem : ∀ e, e ∈ t.entries ↔ e ∈ u.entries := by
    rintro ⟨k, v⟩
    rw [← get_eq_some, ← get_eq_some, h]
  have hnodup : ∀ s : Table K V, s.entries.Nodup := fun s =>
    s.sorted.imp fun {a b} hlt (heq : a = b) => lt_irrefl b.1 (heq ▸ hlt)
  have hperm : t.entries.Perm u.entries :=
    (List.perm_ext_iff_of_nodup (hnodup t) (hnodup u)).mpr hmem
  have heq : t.entries = u.entries :=
    hperm.eq_of_pairwise (fun a b _ _ hab hba => absurd hab (lt_asymm hba)) t.sorted u.sorted
  cases u
  cases heq
  rfl

/-! ## Measures -/

@[simp] theorem total_empty (f : K → V → ℕ) : total f (empty : Table K V) = 0 := rfl

theorem total_insert (f : K → V → ℕ) (t : Table K V) (k : K) (v : V) :
    total f (t.insert k v) = f k v + total f (t.remove k) := by
  have h := (insertEntry_perm (k := k) (v := v) t.sorted).map (fun e => f e.1 e.2)
  simpa [total, insert, remove] using h.sum_eq

/-- What a key contributes to a total is what removing it takes away. -/
theorem total_remove (f : K → V → ℕ) (t : Table K V) (k : K) :
    total f (t.remove k) + (t.get k).elim 0 (f k) = total f t := by
  obtain ⟨l, hl⟩ := t
  simp only [total, remove, get]
  induction l with
  | nil => rfl
  | cons e rest ih =>
    have hrest : ∀ a ∈ rest, e.1 < a.1 := fun a ha => List.rel_of_pairwise_cons hl ha
    obtain ⟨k', v'⟩ := e
    have ih' := ih hl.of_cons
    by_cases hk : k = k'
    · subst hk
      have herase : eraseKey k rest = rest :=
        List.filter_eq_self.mpr fun a ha => by simpa using ne_of_gt (hrest a ha)
      have hcons : eraseKey k ((k, v') :: rest) = rest := by
        simpa [eraseKey] using herase
      simp [hcons, add_comm]
    · have hbeq : (k == k') = false := by simpa using hk
      have hcons : eraseKey k ((k', v') :: rest) = (k', v') :: eraseKey k rest := by
        simp [eraseKey, Ne.symm hk]
      simp [hcons, List.lookup_cons, hbeq, ← ih', add_assoc]

theorem len_eq_total (t : Table K V) : t.len = total (fun _ _ => 1) t := by
  simp [len, total]

/-! ## Mapped tables -/

/-- Change every value. -/
def map {W : Type*} (f : K → V → W) (t : Table K V) : Table K W :=
  ⟨t.entries.map (fun e => (e.1, f e.1 e.2)), List.pairwise_map.mpr t.sorted⟩

theorem get_map {W : Type*} (f : K → V → W) (t : Table K V) (k : K) : (t.map f).get k = (t.get k).map (f k) := by
  ext w
  rw [get_eq_some, map, List.mem_map, Option.map_eq_some_iff]
  constructor
  · rintro ⟨e, he, heq⟩
    cases heq
    exact ⟨e.2, get_eq_some.mpr he, rfl⟩
  · rintro ⟨v, hv, rfl⟩
    exact ⟨(k, v), get_eq_some.mp hv, rfl⟩

/-! ## Reindexed tables -/

/-- The same values under keys computed from their bindings. -/
def reindex {L : Type*} [LinearOrder L] (f : K → V → L) (t : Table K V) : Table L V :=
  t.entries.foldl (fun u e => u.insert (f e.1 e.2) e.2) empty

/-- Where no two bindings compute the same key, the reindexed table has exactly the values of the table. -/
theorem get_reindex {L : Type*} [LinearOrder L] {f : K → V → L}
    (hinj : ∀ {k v k' v'}, t.get k = some v → t.get k' = some v' → f k v = f k' v' → k = k') {n : L} :
    (t.reindex f).get n = some v ↔ ∃ k, t.get k = some v ∧ f k v = n := by
  have hfold : ∀ l : List (K × V), l <+: t.entries →
      ((l.foldl (fun u e => u.insert (f e.1 e.2) e.2) empty : Table L V).get n = some v ↔
        ∃ e ∈ l, e.2 = v ∧ f e.1 e.2 = n) := by
    intro l
    induction l using List.reverseRecOn with
    | nil => simp
    | append_singleton l e ih =>
      intro hpre
      have hl := ih ((List.prefix_append l [e]).trans hpre)
      have hget : ∀ a ∈ l ++ [e], t.get a.1 = some a.2 := fun a ha => get_eq_some.mpr (hpre.subset ha)
      rw [List.foldl_append, List.foldl_cons, List.foldl_nil, get_insert]
      constructor
      · intro h
        split_ifs at h with hn
        · exact ⟨e, by simp, Option.some.inj h, hn.symm⟩
        · obtain ⟨a, ha, hav⟩ := hl.mp h
          exact ⟨a, by simp [ha], hav⟩
      · rintro ⟨a, ha, hav, han⟩
        split_ifs with hn
        · have hkey : a.1 = e.1 := hinj (hget a ha) (hget e (by simp)) (han.trans hn)
          have hval := hget a ha
          rw [hkey, hget e (by simp)] at hval
          rw [Option.some.inj hval, hav]
        · rcases List.mem_append.mp ha with hin | hin
          · exact hl.mpr ⟨a, hin, hav, han⟩
          · rw [List.mem_singleton.mp hin] at han
            exact absurd han.symm hn
  rw [reindex, hfold t.entries List.prefix_rfl]
  constructor
  · rintro ⟨e, he, rfl, hn⟩
    exact ⟨e.1, get_eq_some.mpr he, hn⟩
  · rintro ⟨k, hk, hn⟩
    exact ⟨(k, v), get_eq_some.mp hk, rfl, hn⟩

/-! ## Ranges -/

theorem mem_above {e : K × V} : e ∈ t.above k ↔ t.get e.1 = some e.2 ∧ k < e.1 := by
  simp [above, get_eq_some]

/-! ## Writing a list of bindings -/

/-- The keys of the list take its values, the others keep theirs. -/
theorem get_foldl_insert (hl : l.Pairwise (fun a b => a.1 < b.1)) (t : Table K V) (k : K) :
    (l.foldl (fun t e => t.insert e.1 e.2) t).get k = (l.lookup k).or (t.get k) := by
  induction l generalizing t with
  | nil => rfl
  | cons e l ih =>
    obtain ⟨k', v⟩ := e
    rw [List.foldl_cons, ih hl.of_cons, get_insert]
    by_cases hk : k = k'
    · subst hk
      have hnone : l.lookup k = none := by
        rw [List.lookup_eq_none_iff]
        intro a ha
        have hlt : k < a.1 := List.rel_of_pairwise_cons hl ha
        simpa using ne_of_lt hlt
      rw [if_pos rfl, hnone, List.lookup_cons_self]
      rfl
    · have hbeq : (k == k') = false := by simpa using hk
      rw [if_neg hk, List.lookup_cons, hbeq]

/-- Writing back a list that names every key of a table, in the table's order, leaves that list. -/
theorem foldl_insert_entries (h : l.map Prod.fst = t.entries.map Prod.fst) :
    (l.foldl (fun t e => t.insert e.1 e.2) t).entries = l := by
  have hsorted : l.Pairwise (fun a b => a.1 < b.1) := by
    have hs : (t.entries.map Prod.fst).Pairwise (· < ·) := List.pairwise_map.mpr t.sorted
    rw [← h] at hs
    exact List.pairwise_map.mp hs
  have heq : l.foldl (fun t e => t.insert e.1 e.2) t = ⟨l, hsorted⟩ := by
    apply ext_get
    intro k
    rw [get_foldl_insert hsorted]
    show (l.lookup k).or (t.get k) = l.lookup k
    cases hl : l.lookup k with
    | some v => rfl
    | none =>
      -- a key the list misses is bound in neither
      have hmiss : t.get k = none := by
        rw [get_eq_none]
        intro v hv
        have hk : k ∈ l.map Prod.fst := h ▸ List.mem_map_of_mem (f := Prod.fst) hv
        obtain ⟨e, he, hke⟩ := List.mem_map.mp hk
        have hne := List.lookup_eq_none_iff.mp hl e he
        simp [hke] at hne
      rw [hmiss]
      rfl
  rw [heq]

end Table
