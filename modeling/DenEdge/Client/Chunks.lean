import DenEdge.Base.Json
import DenEdge.Client.Moving

/-!
# The batches of what is written

`chunks` puts writes into a batch until the next would be one too many, or too long: the batches are the writes in
order, and the body of a batch of two or more is no longer than den-edge takes, also where callers send only some
fields of each write.
-/

namespace DenEdge.Client

section

variable {α : Type} {size : α → ℕ} {ws acc : List α} {bytes : ℕ}

theorem chunks_flatten : (chunks size ws acc bytes).flatten = acc ++ ws := by
  induction ws generalizing acc bytes with
  | nil =>
    unfold chunks
    split_ifs with hacc
    · simpa using hacc
    · simp
  | cons w ws ih =>
    unfold chunks
    split_ifs
    · rw [List.flatten_cons, ih, List.singleton_append]
    · rw [ih, List.append_assoc, List.singleton_append]

/-- A batch that is being filled, and the bytes counted for it: a comma for each write. -/
structure Filled (size : α → ℕ) (chunk : List α) (bytes : ℕ) : Prop where
  length : chunk.length ≤ REWRITE_BATCH_MAX
  counted : (chunk.map fun w => size w + 1).sum = bytes
  fits : 1 < chunk.length → bytes ≤ REWRITE_BATCH_MAX_BYTES - 16

theorem filled_one (w : α) : Filled size [w] (size w + 1) := by
  refine ⟨?_, by simp, fun h => ?_⟩
  · rw [List.length_singleton, REWRITE_BATCH_MAX]
    omega
  · rw [List.length_singleton] at h
    omega

theorem Filled.push {w : α} (h : Filled size acc bytes)
    (hroom : ¬ (REWRITE_BATCH_MAX ≤ acc.length ∨ REWRITE_BATCH_MAX_BYTES - 16 < bytes + (size w + 1))) :
    Filled size (acc ++ [w]) (bytes + (size w + 1)) := by
  rw [not_or, not_le, not_lt] at hroom
  refine ⟨?_, by simp [← h.counted], fun _ => hroom.2⟩
  rw [List.length_append, List.length_singleton]
  exact hroom.1

theorem chunks_filled (h : Filled size acc bytes) :
    ∀ chunk ∈ chunks size ws acc bytes, chunk ≠ [] ∧ ∃ bytes, Filled size chunk bytes := by
  -- the batch in hand is filled until it is given; the next begins with one write
  induction ws generalizing acc bytes with
  | nil =>
    unfold chunks
    split_ifs with hacc
    · simp
    · simpa using ⟨by simpa using hacc, bytes, h⟩
  | cons w ws ih =>
    unfold chunks
    split_ifs with hfull
    · refine List.forall_mem_cons.mpr ⟨⟨by simpa using hfull.1, bytes, h⟩, ih (filled_one w)⟩
    · by_cases hne : acc = []
      · subst hne
        obtain rfl : 0 = bytes := h.counted
        rw [Nat.zero_add]
        exact ih (filled_one w)
      · exact ih (h.push fun hfull' => hfull ⟨by simpa using hne, hfull'⟩)

end

/-! ## Bodies -/

/-- A field: its name, and the text of its value. -/
abbrev Field : Type := List Char × List Char

/-- The UTF-8 length of a text. -/
def utf8Length (text : List Char) : ℕ := (text.map Char.utf8Size).sum

/-- Texts with commas between them. -/
def commas (texts : List (List Char)) : List Char := [','].intercalate texts

def Field.text (f : Field) : List Char := Json.quote f.1 ++ ':' :: f.2

/-- `JSON.stringify` of a write. -/
def stringify (w : List Field) : List Char := '{' :: commas (w.map Field.text) ++ ['}']

/-- `JSON.stringify({ writes })`. -/
def body (writes : List (List Field)) : List Char :=
  "\x7b\"writes\":[".toList ++ commas (writes.map stringify) ++ "]\x7d".toList

/-- A write with only some of its fields, as `({ k, base, v }) => ({ k, base, v })` makes of it. -/
def only (names : List (List Char)) (w : List Field) : List Field :=
  names.filterMap fun name => w.find? (·.1 = name)

@[simp] theorem utf8Length_append (s t : List Char) : utf8Length (s ++ t) = utf8Length s + utf8Length t := by
  simp [utf8Length]

@[simp] theorem utf8Length_cons (c : Char) (t : List Char) :
    utf8Length (c :: t) = c.utf8Size + utf8Length t := rfl

theorem utf8Length_commas {α : Type} (text : α → List Char) (l : List α) :
    utf8Length (commas (l.map text)) = (l.map fun a => utf8Length (text a) + 1).sum - 1 := by
  unfold commas
  induction l with
  | nil => rfl
  | cons a l ih =>
    cases l with
    | nil => simp [List.intercalate]
    | cons b l =>
      have hcomma : utf8Length [','] = 1 := rfl
      simp only [List.map_cons, List.sum_cons] at ih ⊢
      rw [List.intercalate_cons_cons, utf8Length_append, utf8Length_append, ih, hcomma]
      omega

theorem only_subperm {names : List (List Char)} (h : names.Nodup) (w : List Field) :
    (only names w).Subperm w := by
  refine List.subperm_of_subset (h.filterMap ?_) fun f hf => ?_
  · intro name name' f hf hf'
    have hname := List.find?_some hf
    have hname' := List.find?_some hf'
    simp only [decide_eq_true_eq] at hname hname'
    exact hname.symm.trans hname'
  · obtain ⟨name, -, hfind⟩ := List.mem_filterMap.mp hf
    exact List.mem_of_find?_eq_some hfind

/-- Fewer fields are no longer text. -/
theorem stringify_le {w w' : List Field} (h : w'.Subperm w) :
    utf8Length (stringify w') ≤ utf8Length (stringify w) := by
  obtain ⟨l, hperm, hsub⟩ := h
  have hsum := (hsub.map fun f => utf8Length (Field.text f) + 1).sum_le_sum fun _ _ => Nat.zero_le _
  rw [(hperm.map _).sum_eq] at hsum
  simp only [stringify, utf8Length_cons, utf8Length_append, utf8Length_commas]
  omega

theorem body_le {chunk : List (List Field)} {bytes : ℕ} (h : Filled (utf8Length <| stringify ·) chunk bytes)
    (hlength : 1 < chunk.length) {pick : List Field → List Field}
    (hpick : ∀ w, utf8Length (stringify (pick w)) ≤ utf8Length (stringify w)) :
    utf8Length (body (chunk.map pick)) ≤ REWRITE_BATCH_MAX_BYTES := by
  have hsum : (chunk.map fun w => utf8Length (stringify (pick w)) + 1).sum ≤ bytes := by
    rw [← h.counted]
    exact List.sum_le_sum fun w _ => Nat.add_le_add_right (hpick w) 1
  have hopens : utf8Length "\x7b\"writes\":[".toList = 11 := by decide
  have hcloses : utf8Length "]\x7d".toList = 2 := by decide
  have hfits := h.fits hlength
  unfold body
  rw [utf8Length_append, utf8Length_append, hopens, hcloses, List.map_map, utf8Length_commas]
  simp only [Function.comp_apply]
  unfold REWRITE_BATCH_MAX_BYTES at hfits ⊢
  omega

/-- **Batches partition what is written**: they are the writes in order, none is empty or of too many, and the
body of a batch of two or more is no longer than den-edge takes, whichever fields of its writes are sent. -/
theorem batches_partition (writes : List (List Field)) :
    let batches := chunks (utf8Length <| stringify ·) writes [] 0
    batches.flatten = writes ∧ ∀ chunk ∈ batches, chunk ≠ [] ∧ chunk.length ≤ REWRITE_BATCH_MAX ∧
      (1 < chunk.length → utf8Length (body chunk) ≤ REWRITE_BATCH_MAX_BYTES ∧
        ∀ names : List (List Char), names.Nodup →
          utf8Length (body (chunk.map (only names))) ≤ REWRITE_BATCH_MAX_BYTES) := by
  intro batches
  refine ⟨chunks_flatten, fun chunk hchunk => ?_⟩
  have hempty : Filled (utf8Length <| stringify ·) [] 0 := ⟨by decide, rfl, nofun⟩
  obtain ⟨hne, bytes, hfilled⟩ := chunks_filled hempty chunk hchunk
  refine ⟨hne, hfilled.length, fun hlength => ⟨?_, fun names hnames => ?_⟩⟩
  · have hbody := body_le hfilled hlength fun w => le_refl (utf8Length (stringify (id w)))
    rwa [List.map_id] at hbody
  · exact body_le hfilled hlength fun w => stringify_le (only_subperm hnames w)

end DenEdge.Client
