import DenEdge.Base.Digest
import DenEdge.Reset.Store
import DenEdge.Store.History

/-!
# A library's source

What a key reset compares a library with: its generation, and the digest of the canonical JSON of its protocol and
its current rows. Two libraries have one source only if they have one id and the same rows.
-/

namespace DenEdge.Reset

variable {id id' : String} {db db' : Db} {p p' : Protocol} {rows rows' : List CurrentRow} {l l' : List Char}

variable (codec : FragmentCodec)

/-- A stored row, if it decodes and its sequence is its own. -/
def snapshotRow (stored : ℕ × String) : Option CurrentRow := do
  let (k, seq, v) ← codec.decode stored.2
  if seq = stored.1 then some ⟨k, seq, v⟩ else none

/-- The current rows in the order of their keys. -/
def snapshotRows (rows : List (ℕ × String)) : Option (List CurrentRow) :=
  (rows.mapM (snapshotRow codec)).map (·.mergeSort (·.key ≤ ·.key))

/-- Rows, a comma before each. -/
def listed (rows : List CurrentRow) : List Char := rows.flatMap fun row => ',' :: row.fragment.toList

/-- `canonical_json` of what a snapshot is authenticated by: its members in the order of their names. -/
def canonicalJson (id : String) (generation base wireMin : ℕ) (rows : List CurrentRow) : String :=
  String.ofList ("\x7b\"base\":".toList ++ (Json.number base ++ (",\"generation\":".toList ++
    (Json.number generation ++ (",\"libraryId\":".toList ++ (Json.quote id.toList ++ (",\"rows\":[".toList ++
      ((listed rows).drop 1 ++ ("],\"wireMin\":".toList ++ (Json.number wireMin ++ "\x7d".toList))))))))))

def observed (sha : Digest) (id : String) (db : Db) : Except StoreError (Source × Fence) := do
  let p ← readProtocol db
  if MAX_SAFE_INTEGER < p.migrationGeneration then .error (.invalid "invalid library source") else
  match snapshotRows codec db.sequence.entries with
  | none => .error (.invalid "library source is corrupt")
  | some rows =>
    let head := sha.of (canonicalJson id p.migrationGeneration p.head p.wireMin rows)
    .ok (⟨p.migrationGeneration, head⟩, ⟨p.migrationGeneration, p.head, head⟩)

/-! ## What the text says -/

theorem number_append_inj {m n : ℕ} (hl : l.takeWhile Char.isDigit = []) (hl' : l'.takeWhile Char.isDigit = [])
    (h : Json.number m ++ l = Json.number n ++ l') : m = n ∧ l = l' := by
  have hread := Json.readNumber_number m hl
  rw [h, Json.readNumber_number n hl'] at hread
  cases hread
  exact ⟨rfl, rfl⟩

theorem quote_append_inj {s s' : String} (h : Json.quote s.toList ++ l = Json.quote s'.toList ++ l') :
    s = s' ∧ l = l' := by
  have hread := Json.readQuoted_quote s.toList l
  rw [h, Json.readQuoted_quote] at hread
  simpa [String.toList_inj, eq_comm] using hread

theorem fragment_append_inj {row row' : CurrentRow} (h : row.fragment.toList ++ l = row'.fragment.toList ++ l') :
    row = row' ∧ l = l' := by
  simp only [CurrentRow.fragment, rowFragment, String.toList_ofList, List.append_assoc] at h
  obtain ⟨hkey, hnext⟩ := quote_append_inj (List.append_cancel_left h)
  obtain ⟨hsequence, hnext⟩ := number_append_inj rfl rfl (List.append_cancel_left hnext)
  obtain ⟨hvalue, hnext⟩ := quote_append_inj (List.append_cancel_left hnext)
  cases row
  cases row'
  simp_all

theorem listed_append_inj (h : listed rows ++ ']' :: l = listed rows' ++ ']' :: l') : rows = rows' ∧ l = l' := by
  induction rows generalizing rows' with
  | nil => cases rows' <;> simp_all [listed]
  | cons row rows ih =>
    cases rows' with
    | nil => simp [listed] at h
    | cons row' rows' =>
      simp only [listed, List.flatMap_cons, List.cons_append, List.append_assoc, List.cons.injEq, true_and] at h
      obtain ⟨rfl, hrows⟩ := fragment_append_inj h
      obtain ⟨rfl, hl⟩ := ih hrows
      exact ⟨rfl, hl⟩

theorem canonicalJson_inj {g g' b b' w w' : ℕ}
    (h : canonicalJson id g b w rows = canonicalJson id' g' b' w' rows') :
    id = id' ∧ g = g' ∧ b = b' ∧ w = w' ∧ rows = rows' := by
  obtain ⟨hbase, hnext⟩ := number_append_inj rfl rfl (List.append_cancel_left (String.ofList_injective h))
  obtain ⟨hgeneration, hnext⟩ := number_append_inj rfl rfl (List.append_cancel_left hnext)
  obtain ⟨hid, hnext⟩ := quote_append_inj (List.append_cancel_left hnext)
  have hrows : listed rows ++ ("],\"wireMin\":".toList ++ (Json.number w ++ "\x7d".toList)) =
      listed rows' ++ ("],\"wireMin\":".toList ++ (Json.number w' ++ "\x7d".toList)) := by
    have hdrop := List.append_cancel_left hnext
    -- the first row has no comma before it, and begins as no closing bracket does
    cases rows <;> cases rows' <;> simp_all [listed, CurrentRow.fragment, rowFragment, memberK]
  obtain ⟨hsame, hwire⟩ := listed_append_inj hrows
  exact ⟨hid, hgeneration, hbase, (number_append_inj rfl rfl (List.append_cancel_left hwire)).1, hsame⟩

/-! ## What the source says -/

theorem snapshotRows_spec (h : Rep db) :
    ∃ rows, snapshotRows codec db.sequence.entries = some rows ∧
      ∀ n f, db.sequence.get n = some f ↔ ∃ row ∈ rows, row.sequence = n ∧ row.fragment = f := by
  have hrange : db.sequence.entries ∈
      Set.range (List.map fun row : CurrentRow => (row.sequence, row.fragment)) := by
    rw [Set.range_list_map]
    rintro ⟨n, f⟩ he
    obtain ⟨k, v, rfl⟩ := h.canonical n f (Table.get_eq_some.mpr he)
    exact ⟨⟨k, n, v⟩, rfl⟩
  obtain ⟨rows, hrows⟩ := hrange
  have hread : (rows.map fun row => (row.sequence, row.fragment)).mapM (snapshotRow codec) = some rows := by
    clear hrows
    induction rows with
    | nil => rfl
    | cons row rows ih =>
      rw [List.map_cons, List.mapM_cons, ih]
      simp [snapshotRow, CurrentRow.fragment, codec.decode_rowFragment]
  refine ⟨rows.mergeSort (·.key ≤ ·.key), ?_, fun n f => ?_⟩
  · rw [snapshotRows, ← hrows, hread]
    rfl
  · rw [Table.get_eq_some, ← hrows]
    simp

/-- **A library's source is that of its rows.** Two libraries whose tables hold their rows, and whose protocols
are read, have sources, and these are the same exactly if the ids, the generations, the heads, the wire minimums
and the rows are. -/
theorem source_pins_rows (codec : FragmentCodec) (sha : Digest) (id id' : String) (h : Rep db) (h' : Rep db')
    (hp : readProtocol db = .ok p) (hp' : readProtocol db' = .ok p')
    (hsafe : p.migrationGeneration ≤ MAX_SAFE_INTEGER) (hsafe' : p'.migrationGeneration ≤ MAX_SAFE_INTEGER) :
    ∃ found found', observed codec sha id db = .ok found ∧ observed codec sha id' db' = .ok found' ∧
      (found.1 = found'.1 ↔ id = id' ∧ p.migrationGeneration = p'.migrationGeneration ∧ p.head = p'.head ∧
        p.wireMin = p'.wireMin ∧ db.sequence = db'.sequence) := by
  obtain ⟨rows, hrows, hget⟩ := snapshotRows_spec codec h
  obtain ⟨rows', hrows', hget'⟩ := snapshotRows_spec codec h'
  unfold observed
  rw [hp, hp', Except.ok_bind, Except.ok_bind, if_neg (not_lt.mpr hsafe), if_neg (not_lt.mpr hsafe'),
    hrows, hrows']
  refine ⟨_, _, rfl, rfl, fun hsame => ?_, ?_⟩
  · obtain ⟨hid, hgeneration, hhead, hwire, rfl⟩ := canonicalJson_inj (sha.injective (Source.mk.inj hsame).2)
    exact ⟨hid, hgeneration, hhead, hwire, Table.ext_get fun n => Option.ext fun f =>
      (hget n f).trans (hget' n f).symm⟩
  · rintro ⟨hid, hgeneration, hhead, hwire, hsequence⟩
    rw [hsequence, hrows'] at hrows
    rw [hid, hgeneration, hhead, hwire, Option.some.inj hrows]

/-- A new library with the rows of one batch. -/
def sampleLibrary (writes : List Write) : Db :=
  match applyTiered (freshDb 1 none "g") writes 1000 2 ⟨false, 0, 0⟩ ⟨none, none⟩ with
  | .ok (db, _) => db
  | .error _ => freshDb 1 none "g"

theorem sampleLibrary_rep (writes : List Write) : Rep (sampleLibrary writes) := by
  unfold sampleLibrary
  split
  · rename_i happly
    exact ((freshDb_holds 1 none "g").applyTiered happly).1.rep
  · exact (freshDb_holds 1 none "g").rep

/-- Three libraries of one id, generation, head and wire minimum: the second has another value in one row, the
third the rows of the first in the other order. -/
theorem source_pins_rows_sample :
    let first : Write := ⟨"aaaaaaaaaaaaaaaa", 0, "x"⟩
    let second : String → Write := fun value => ⟨"bbbbbbbbbbbbbbbb", 0, value⟩
    ∃ found value order, observed canonicalCodec .plain "a" (sampleLibrary [first, second "y"]) = .ok found ∧
      observed canonicalCodec .plain "a" (sampleLibrary [first, second "z"]) = .ok value ∧
      observed canonicalCodec .plain "a" (sampleLibrary [second "y", first]) = .ok order ∧
      found.1 ≠ value.1 ∧ found.1 ≠ order.1 := by
  intro first second
  have hprotocol : ∀ writes ∈ [[first, second "y"], [first, second "z"], [second "y", first]],
      readProtocol (sampleLibrary writes) = .ok ⟨2, 2, "g", 1⟩ := by decide +kernel
  obtain ⟨found, value, h, hvalue, hiff⟩ := source_pins_rows canonicalCodec .plain "a" "a"
    (sampleLibrary_rep [first, second "y"]) (sampleLibrary_rep [first, second "z"])
    (hprotocol _ (by simp)) (hprotocol _ (by simp)) (by decide) (by decide)
  obtain ⟨found', order, h', horder, hiff'⟩ := source_pins_rows canonicalCodec .plain "a" "a"
    (sampleLibrary_rep [first, second "y"]) (sampleLibrary_rep [second "y", first])
    (hprotocol _ (by simp)) (hprotocol _ (by simp)) (by decide) (by decide)
  obtain rfl := Except.ok.inj (h.symm.trans h')
  refine ⟨found, value, order, h, hvalue, horder, fun hsame => ?_, fun hsame => ?_⟩
  · exact absurd (congrArg (·.get 2) (hiff.mp hsame).2.2.2.2) (by decide +kernel)
  · exact absurd (congrArg (·.get 1) (hiff'.mp hsame).2.2.2.2) (by decide +kernel)

end DenEdge.Reset
