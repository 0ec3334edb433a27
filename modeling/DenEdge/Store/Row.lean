import DenEdge.Base.Json

/-!
# Rows and their limits

A row of a library is a key, a sequence and a sealed value. den-edge keeps a row as its canonical wire fragment
(`rowFragment`), limits what a key and a value may be (`validHexId`, `valueFits`), and charges a row its stored
bytes (`storedCharge`).

Reading a fragment back is the work of a JSON library. It is a parameter here: a `FragmentCodec` is any reader
that takes a canonical fragment back to its row. `canonicalCodec` is one.
-/

namespace DenEdge

/-- Writes in one batch. -/
def MAX_WRITES : ℕ := 200

/-- Bytes of a value below wire minimum 4. -/
def MAX_VALUE : ℕ := 32 * 1024

/-- Bytes of a value, as stored and as escaped, from wire minimum 4. -/
def MAX_VALUE_V4 : ℕ := 256 * 1024

/-- Rows of one page. -/
def MAX_LIMIT : ℕ := 1000

/-- Live rows of one library. -/
def MAX_ROWS : ℕ := 50000

/-- Bytes of one page. -/
def PAGE_BYTES : ℕ := 512 * 1024

/-- The largest integer a client compares exactly. -/
def MAX_SAFE_INTEGER : ℕ := 9007199254740991

/-- Bytes of a text, as UTF-8. -/
abbrev bytes (s : String) : ℕ := s.utf8ByteSize

/-- A byte range test on the characters of a text. Every byte of a longer UTF-8 sequence is above `0x7f`, so a
test on ASCII bytes is a test on characters. -/
def isAsciiHexdigit (c : Char) : Bool :=
  ('0' ≤ c && c ≤ '9') || ('a' ≤ c && c ≤ 'f') || ('A' ≤ c && c ≤ 'F')

/-- Keys and library ids: 16 to 128 hexadecimal digits. -/
def validHexId (s : String) : Bool :=
  16 ≤ bytes s && bytes s ≤ 128 && s.toList.all isAsciiHexdigit

/-- What one character of a value costs once escaped in JSON. -/
def escapedCharLen (c : Char) : ℕ :=
  if c = '"' ∨ c = '\\' ∨ c.toNat = 8 ∨ c.toNat = 12 ∨ c = '\n' ∨ c = '\r' ∨ c = '\t' then 2
  else if c.toNat < 32 then 6
  else c.utf8Size

/-- A value's length in the JSON that carries it. -/
def escapedLen (value : String) : ℕ := (value.toList.map escapedCharLen).sum

/-- Whether a value may be stored under a wire minimum. -/
def valueFits (value : String) (wireMin : ℕ) : Bool :=
  if wireMin < 4 then bytes value ≤ MAX_VALUE
  else bytes value ≤ MAX_VALUE_V4 && escapedLen value ≤ MAX_VALUE_V4

/-- What a live row counts against its library's limit. -/
def storedCharge (key value : String) : ℕ := bytes key + bytes value

/-! The fixed texts around a row's members. -/

def memberK : List Char := "\x7b\"k\":".toList
def memberSeq : List Char := ",\"seq\":".toList
def memberV : List Char := ",\"v\":".toList
def closing : List Char := "\x7d".toList

/-- The canonical wire form of a row. -/
def rowFragment (seq : ℕ) (k v : String) : String :=
  String.ofList (memberK ++ Json.quote k.toList ++ memberSeq ++ Json.number seq ++ memberV ++
    Json.quote v.toList ++ closing)

/-- A reader of fragments: what it makes of a canonical one is the row it was written from. -/
structure FragmentCodec where
  decode : String → Option (String × ℕ × String)
  /-- What it says of a text it does not read. -/
  why : String → String
  decode_rowFragment : ∀ s k v, decode (rowFragment s k v) = some (k, s, v)

theorem FragmentCodec.rowFragment_inj (codec : FragmentCodec) {s s' : ℕ} {k k' v v' : String}
    (h : rowFragment s k v = rowFragment s' k' v') : s = s' ∧ k = k' ∧ v = v' := by
  have hd := codec.decode_rowFragment s k v
  rw [h, codec.decode_rowFragment s' k' v'] at hd
  simp only [Option.some.injEq, Prod.mk.injEq] at hd
  exact ⟨hd.2.1.symm, hd.1.symm, hd.2.2.symm⟩

/-- Reads exactly the canonical form. -/
def decodeCanonical (fragment : String) : Option (String × ℕ × String) := do
  let l ← Json.expect memberK fragment.toList
  let (k, l) ← Json.readQuoted l
  let l ← Json.expect memberSeq l
  let (seq, l) := Json.readNumber l
  let l ← Json.expect memberV l
  let (v, l) ← Json.readQuoted l
  if l = closing then some (String.ofList k, seq, String.ofList v) else none

theorem decodeCanonical_rowFragment (s : ℕ) (k v : String) :
    decodeCanonical (rowFragment s k v) = some (k, s, v) := by
  have hdigit : ∀ l : List Char, (memberV ++ l).takeWhile Char.isDigit = [] := fun _ => rfl
  simp only [decodeCanonical, rowFragment, String.toList_ofList, List.append_assoc, Json.expect_append,
    Json.readQuoted_quote, Json.readNumber_number s (hdigit _), Option.bind_eq_bind, Option.bind_some,
    String.ofList_toList, if_true]

/-- The reader of the canonical form is a codec. -/
def canonicalCodec : FragmentCodec := ⟨decodeCanonical, fun _ => "not canonical", decodeCanonical_rowFragment⟩

example : rowFragment 7 "aa" "x\"y" = "\x7b\"k\":\"aa\",\"seq\":7,\"v\":\"x\\\"y\"\x7d" := by decide

end DenEdge
