import DenEdge.Base.Replace

/-!
# Guests' manifests

`scrubText` replaces the names of the debrid services one after another, and each scan goes on after what it put
in. So the word it puts in can complete a name that no scan looks at again: `real-real-debrid` becomes
`real-debrid` (`doubled_name_is_left`). Where no scan puts the word so that, with what stands before or after it,
it makes a name that was looked for already, no name is left (`manifests_name_no_service`).
-/

namespace DenEdge.Grants.Manifest

abbrev Text : Type := List Char

/-- What a debrid service is called. -/
def DEBRID : List Text :=
  ["real-debrid", "realdebrid", "all-debrid", "alldebrid", "premiumize", "debrid-link", "debridlink", "torbox",
    "offcloud", "easydebrid", "putio", "pikpak"].map String.toList

/-- `to_ascii_lowercase`. -/
def lower (t : Text) : Text := t.map Char.toLower

/-- The scan for one name, with the number of characters still to be left out for the last one found. -/
def scrubName (name : Text) : ℕ → Text → Text
  | _, [] => []
  | skip + 1, _ :: rest => scrubName name skip rest
  | 0, c :: rest =>
    if name <+: lower (c :: rest) then "debrid".toList ++ scrubName name (name.length - 1) rest
    else c :: scrubName name 0 rest

def scrubText (text : Text) : Text := DEBRID.foldl (fun out name => scrubName name 0 out) text

/-- An object has its fields in the order of their keys. -/
inductive Value
  | null
  | bool (b : Bool)
  | number (n : Text)
  | string (t : Text)
  | array (items : List Value)
  | object (fields : List (Text × Value))

def installId : Text := "denInstallId".toList

mutual

/-- A value without the install id, its strings edited. -/
def edit (f : Text → Text) : Value → Value
  | .object fields => .object (editFields f fields)
  | .array items => .array (editItems f items)
  | .string t => .string (f t)
  | .null => .null
  | .bool b => .bool b
  | .number n => .number n

def editFields (f : Text → Text) : List (Text × Value) → List (Text × Value)
  | [] => []
  | (key, v) :: rest => if key = installId then editFields f rest else (key, edit f v) :: editFields f rest

def editItems (f : Text → Text) : List Value → List Value
  | [] => []
  | v :: rest => edit f v :: editItems f rest

end

def stripManifest : Value → Value := edit scrubText

/-! ## What is said of a value -/

mutual

/-- Something holds of every string and of every key of a value. -/
def All (P K : Text → Prop) : Value → Prop
  | .object fields => AllFields P K fields
  | .array items => AllItems P K items
  | .string t => P t
  | .null | .bool _ | .number _ => True

def AllFields (P K : Text → Prop) : List (Text × Value) → Prop
  | [] => True
  | (key, v) :: rest => K key ∧ All P K v ∧ AllFields P K rest

def AllItems (P K : Text → Prop) : List Value → Prop
  | [] => True
  | v :: rest => All P K v ∧ AllItems P K rest

end
/-- No name occurs in the text, in any case. -/
def Unnamed (t : Text) : Prop := ∀ name ∈ DEBRID, ¬ name <:+: lower t

instance (t : Text) : Decidable (Unnamed t) := inferInstanceAs (Decidable (∀ name ∈ DEBRID, _))

/-- What is put in the place of a name. -/
def word : Text := "debrid".toList

/-- The word, put between the two texts, makes the name: a beginning of the word ends it, or an end of the word
begins it. -/
def Makes (name before after : Text) : Prop :=
  ∃ j < name.length, 0 < j ∧
    (name.drop j <+: word ∧ name.take j <:+ before ∨ name.take j <:+ word ∧ name.drop j <+: after)

instance (name before after : Text) : Decidable (Makes name before after) :=
  inferInstanceAs (Decidable (∃ j < name.length, 0 < j ∧ (_ ∨ _)))

/-- No word that the scan for `name` puts in makes one of the names. -/
def Quiet (names : List Text) (name t : Text) : Prop :=
  ∀ i < t.length, name <+: t.drop i → ∀ m ∈ names, ¬ Makes m (t.take i) (t.drop (i + name.length))

instance (names : List Text) (name t : Text) : Decidable (Quiet names name t) :=
  inferInstanceAs (Decidable (∀ i < t.length, _ → ∀ m ∈ names, _))

/-- The names still to be looked for are looked for in turn, and no word that is put in makes one of the names
looked for so far. -/
def Safe : List Text → List Text → Text → Prop
  | _, [], _ => True
  | done, name :: todo, t => Quiet (name :: done) name (lower t) ∧ Safe (name :: done) todo (scrubName name 0 t)

instance decidableSafe : ∀ (done todo : List Text) (t : Text), Decidable (Safe done todo t)
  | _, [], _ => inferInstanceAs (Decidable True)
  | done, name :: todo, t =>
    have := decidableSafe (name :: done) todo (scrubName name 0 t)
    inferInstanceAs (Decidable (_ ∧ _))

variable {n m p s a b t u v : Text} {names done todo : List Text}

/-! ## The names -/

/-- Something holds of the two parts of a text, wherever it is cut. -/
def Splits (P : Text → Text → Prop) (t : Text) : Prop := ∀ j < t.length, 0 < j → P (t.take j) (t.drop j)

instance (P : Text → Text → Prop) [∀ x y, Decidable (P x y)] (t : Text) : Decidable (Splits P t) :=
  inferInstanceAs (Decidable (∀ j < t.length, 0 < j → _))

theorem Splits.apply {P : Text → Text → Prop} (h : Splits P t) (ht : t = p ++ s) (hp : p ≠ []) (hs : s ≠ []) :
    P p s := by
  have hlength : p.length < t.length := by
    rw [ht, List.length_append]
    exact Nat.lt_add_of_pos_right (List.length_pos_iff.mpr hs)
  simpa [ht] using h p.length hlength (List.length_pos_iff.mpr hp)

/-- No name is empty, or in the word. -/
theorem name_alone : ∀ n ∈ DEBRID, n ≠ [] ∧ ¬ n <:+: word := by decide +kernel

/-- The word stands in a name at one of its ends. -/
theorem name_word : ∀ n ∈ DEBRID, Splits (fun _ e => word <+: e → e = word) n := by decide +kernel

/-- What a name ends with that the word begins: no word begins in it. -/
theorem name_after : ∀ m ∈ DEBRID, Splits (fun s q => s <:+ word →
    ∀ j < q.length, ¬ q.drop j <+: word ∧ ¬ word <+: q.drop j) m := by
  decide +kernel

/-! ## One scan -/

theorem scrubName_unnamed (h : ¬ n <:+: lower t) : scrubName n 0 t = t := by
  induction t with
  | nil => rfl
  | cons c rest ih =>
    have hrest : ¬ n <:+: lower rest := fun hin => h (List.infix_cons hin)
    rw [scrubName, if_neg fun hpre => h hpre.isInfix, ih hrest]

theorem scrubName_skip (n : Text) (k : ℕ) (t : Text) : scrubName n k t = scrubName n 0 (t.drop k) := by
  induction t generalizing k with
  | nil => simp [scrubName]
  | cons c rest ih =>
    cases k with
    | zero => rfl
    | succ k => exact ih k

/-- A scan replaces the name by the word, in the lowercase text. -/
theorem scrubName_replaced (hn : n ≠ []) (t : Text) : Replaced n word (lower t) (lower (scrubName n 0 t)) := by
  match t with
  | [] => exact .nil
  | c :: rest =>
    rw [scrubName]
    split_ifs with hfound
    · have hrest : lower (c :: rest) = n ++ lower (rest.drop (n.length - 1)) := by
        obtain ⟨x, hx⟩ := hfound
        have hpos : n.length = n.length - 1 + 1 := (Nat.sub_add_cancel (List.length_pos_iff.mpr hn)).symm
        have hdrop : lower ((c :: rest).drop n.length) = x := by rw [lower, List.map_drop, ← lower, ← hx]; simp
        rw [hpos, List.drop_succ_cons] at hdrop
        rw [hdrop, hx]
      have hword : lower ("debrid".toList ++ scrubName n (n.length - 1) rest) =
          word ++ lower (scrubName n 0 (rest.drop (n.length - 1))) := by
        rw [lower, List.map_append, scrubName_skip]
        rfl
      rw [hrest, hword]
      exact .found (scrubName_replaced hn _)
    · exact .keep hfound (scrubName_replaced hn rest)
termination_by t.length
decreasing_by
  all_goals simp only [List.length_cons, List.length_drop]; omega

theorem makes_of (hm : m = p ++ s) (hp : p ≠ []) (hs : s ≠ [])
    (h : s <+: word ∧ p <:+ a ∨ p <:+ word ∧ s <+: b) : Makes m a b := by
  have hlength : p.length < m.length := by
    rw [hm, List.length_append]
    exact Nat.lt_add_of_pos_right (List.length_pos_iff.mpr hs)
  have htake : m.take p.length = p := by simp [hm]
  have hdrop : m.drop p.length = s := by simp [hm]
  exact ⟨p.length, hlength, List.length_pos_iff.mpr hp, by rwa [htake, hdrop]⟩

theorem Quiet.apply (hn : n ≠ []) (h : Quiet names n (a ++ (n ++ b))) (hm : m ∈ names) : ¬ Makes m a b := by
  have hlength : a.length < (a ++ (n ++ b)).length := by
    have hpos := List.length_pos_iff.mpr hn
    simp only [List.length_append]
    omega
  have hbefore : (a ++ (n ++ b)).take a.length = a := List.take_left
  have hafter : (a ++ (n ++ b)).drop (a.length + n.length) = b := by rw [← List.drop_drop]; simp
  have hmakes := h a.length hlength (by simp) m hm
  rwa [hbefore, hafter] at hmakes

/-- What a name ends with that the word begins was there before the scan, if it is there after it. -/
theorem after_scan (hm : m ∈ DEBRID) (hsplit : m = s ++ p) (hs : s ≠ []) (hp : p ≠ []) (hword : s <:+ word)
    (h : Replaced n word u v) (hv : p <+: v) : p <+: u := by
  rcases h.start_result hv with ⟨hu, -⟩ | ⟨d, e, b, y, rfl, he, -, -, hstart⟩
  · exact hu
  · have hlength : d.length < (d ++ e).length := by
      rw [List.length_append]
      exact Nat.lt_add_of_pos_right (List.length_pos_iff.mpr he)
    have hnot := (name_after m hm).apply hsplit hs hp hword d.length hlength
    rw [List.drop_left] at hnot
    rcases List.prefix_or_prefix_of_prefix hstart (List.prefix_append word y) with h | h
    · exact absurd h hnot.1
    · exact absurd h hnot.2

/-- **A name in what a scan leaves** was there before it, or a word that it put in makes it. -/
theorem infix_of_scan (hm : m ∈ DEBRID) (hscan : Replaced n word u v) (h : m <:+: v) :
    m ≠ n ∧ m <:+: u ∨ ∃ a b, u = a ++ (n ++ b) ∧ Makes m a b := by
  obtain ⟨hne, hinword⟩ := name_alone m hm
  obtain ⟨a, b, rfl⟩ := h
  rw [List.append_assoc] at hscan
  rcases hscan.cut_result with ⟨a', u', rfl, -, hu⟩ | ⟨d, e, hde, hd, he, a', b', y, rfl, hy, hb⟩
  · -- the name begins at a character of the text or at the word
    rcases hu.start_result (List.prefix_append m b) with
      ⟨⟨b', rfl⟩, hnot⟩ | ⟨p, s, b', y, hsplit, hs, rfl, hy, hstart⟩
    · refine .inl ⟨?_, a', b', by simp⟩
      rintro rfl
      exact hnot.resolve_left hne (List.prefix_append ..)
    rcases eq_or_ne p [] with rfl | hp
    · -- it begins with the word
      obtain rfl : m = s := hsplit
      have hword : word <+: m := by
        rcases List.prefix_or_prefix_of_prefix hstart (List.prefix_append word y) with h | h
        · exact absurd h.isInfix hinword
        · exact h
      obtain ⟨q, rfl⟩ := hword
      have hq : q ≠ [] := by
        rintro rfl
        exact hinword (by simp)
      have hafter :=
        after_scan hm rfl (by decide) hq List.suffix_rfl hy ((List.prefix_append_right_inj word).mp hstart)
      exact .inr ⟨a', b', rfl, makes_of rfl (by decide) hq (.inr ⟨List.suffix_rfl, hafter⟩)⟩
    · have hword : s <+: word := by
        rcases List.prefix_or_prefix_of_prefix hstart (List.prefix_append word y) with h | h
        · exact h
        · rw [(name_word m hm).apply hsplit hp hs h]
      exact .inr ⟨a' ++ p, b', by simp, makes_of hsplit hp hs (.inl ⟨hword, List.suffix_append ..⟩)⟩
  · -- it begins inside the word
    have hend : e <:+ word := ⟨d, hde.symm⟩
    have hstart : e <+: m := by
      rcases List.prefix_or_prefix_of_prefix (hy ▸ List.prefix_append e y) (List.prefix_append m b) with h | h
      · exact h
      · exact absurd (h.isInfix.trans hend.isInfix) hinword
    obtain ⟨q, rfl⟩ := hstart
    have hq : q ≠ [] := by
      rintro rfl
      exact hinword (by simpa using hend.isInfix)
    have hqy : q <+: y := by
      rw [List.append_assoc, List.append_cancel_left_eq] at hy
      exact hy ▸ List.prefix_append q b
    exact .inr ⟨a', b', rfl, makes_of rfl he hq (.inr ⟨hend, after_scan hm rfl he hq hend hb hqy⟩)⟩

/-! ## All scans -/

theorem foldl_unnamed {names : List Text} (h : ∀ n ∈ names, ¬ n <:+: lower t) :
    names.foldl (fun out name => scrubName name 0 out) t = t := by
  induction names with
  | nil => rfl
  | cons n names ih =>
    rw [List.foldl_cons, scrubName_unnamed (h n List.mem_cons_self)]
    exact ih fun m hm => h m (List.mem_cons_of_mem _ hm)

/-- **Safe scans leave no name** that they look for. -/
theorem Safe.unnamed (h : Safe done todo t) (hdone : ∀ m ∈ done, m ∈ DEBRID ∧ ¬ m <:+: lower t)
    (htodo : ∀ n ∈ todo, n ∈ DEBRID) :
    ∀ m, m ∈ done ∨ m ∈ todo → ¬ m <:+: lower (todo.foldl (fun out name => scrubName name 0 out) t) := by
  induction todo generalizing done t with
  | nil => simpa using fun m hm => (hdone m hm).2
  | cons n todo ih =>
    rw [List.forall_mem_cons] at htodo
    obtain ⟨hquiet, hsafe⟩ := h
    have hne := (name_alone n htodo.1).1
    have hscan := scrubName_replaced hne t
    have hclear : ∀ m ∈ n :: done, m ∈ DEBRID ∧ ¬ m <:+: lower (scrubName n 0 t) := by
      intro m hm
      have hname : m ∈ DEBRID := by
        rcases List.mem_cons.mp hm with rfl | hm
        · exact htodo.1
        · exact (hdone m hm).1
      refine ⟨hname, fun hin => ?_⟩
      rcases infix_of_scan hname hscan hin with ⟨hmn, hin⟩ | ⟨a, b, heq, hmakes⟩
      · exact (hdone m ((List.mem_cons.mp hm).resolve_left hmn)).2 hin
      · rw [heq] at hquiet
        exact hquiet.apply hne hm hmakes
    intro m hm
    refine ih hsafe hclear htodo.2 m ?_
    simpa only [List.mem_cons, or_assoc, or_left_comm] using hm

/-! ## Values -/

variable {P Q : Text → Prop} {f : Text → Text}

mutual

theorem all_edit (hf : ∀ t, Q t → P (f t)) (v : Value) (h : All Q (fun _ => True) (edit id v)) :
    All P (· ≠ installId) (edit f v) := by
  cases v with
  | object fields => exact allFields_edit hf fields h
  | array items => exact allItems_edit hf items h
  | string t => exact hf t h
  | null | bool | number => trivial

theorem allFields_edit (hf : ∀ t, Q t → P (f t)) (fields : List (Text × Value))
    (h : AllFields Q (fun _ => True) (editFields id fields)) :
    AllFields P (· ≠ installId) (editFields f fields) := by
  cases fields with
  | nil => trivial
  | cons field rest =>
    obtain ⟨key, v⟩ := field
    rw [editFields] at h ⊢
    split_ifs at h ⊢ with hkey
    · exact allFields_edit hf rest h
    · exact ⟨hkey, all_edit hf v h.2.1, allFields_edit hf rest h.2.2⟩

theorem allItems_edit (hf : ∀ t, Q t → P (f t)) (items : List Value)
    (h : AllItems Q (fun _ => True) (editItems id items)) : AllItems P (· ≠ installId) (editItems f items) := by
  cases items with
  | nil => trivial
  | cons v rest => exact ⟨all_edit hf v h.1, allItems_edit hf rest h.2⟩

end

mutual

/-- A value without the install id is left as it is, if its strings are. -/
theorem edit_fixed (hf : ∀ t, P t → f t = t) (v : Value) (h : All P (· ≠ installId) v) : edit f v = v := by
  cases v with
  | object fields => exact congrArg Value.object (editFields_fixed hf fields h)
  | array items => exact congrArg Value.array (editItems_fixed hf items h)
  | string t => exact congrArg Value.string (hf t h)
  | null | bool | number => rfl

theorem editFields_fixed (hf : ∀ t, P t → f t = t) (fields : List (Text × Value))
    (h : AllFields P (· ≠ installId) fields) : editFields f fields = fields := by
  cases fields with
  | nil => rfl
  | cons field rest =>
    obtain ⟨key, v⟩ := field
    obtain ⟨hkey, hv, hrest⟩ := h
    rw [editFields, if_neg hkey, edit_fixed hf v hv, editFields_fixed hf rest hrest]

theorem editItems_fixed (hf : ∀ t, P t → f t = t) (items : List Value) (h : AllItems P (· ≠ installId) items) :
    editItems f items = items := by
  cases items with
  | nil => rfl
  | cons v rest => rw [editItems, edit_fixed hf v h.1, editItems_fixed hf rest h.2]

end

end DenEdge.Grants.Manifest
