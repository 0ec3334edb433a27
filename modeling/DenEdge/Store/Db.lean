import DenEdge.Base.Table
import DenEdge.Store.Row

/-!
# One library's database

The tables of one v3 library as redb keeps them: `keys-v3` binds each live key to its sequence and charge packed
in one number, `sequence-v3` binds each live sequence to the row's canonical fragment, and the two metadata tables
hold a handful of named values. A named value is a field here, `none` where the table has no entry of that name;
the records of exclusive operations, whose names are open, are a table.

A write transaction is a function to `Except StoreError (Db × α)`: what it commits and what it answers, or an
error and nothing committed.
-/

namespace DenEdge

/-- Why a store operation was refused. -/
inductive StoreError where
  | full
  | forbidden
  | locked
  | generationChanged
  | upgradeRequired (min : ℕ)
  | tooLarge
  | invalid (why : String)
  | failed (why : String)
  deriving DecidableEq

/-- A SHA-256 digest. -/
abbrev Hash := BitVec 256

/-! ## Packed key values -/

def CHARGE_BITS : ℕ := 20
def MAX_CHARGE : ℕ := 2 ^ CHARGE_BITS - 1
def MAX_SEQUENCE : ℕ := 2 ^ (64 - CHARGE_BITS) - 1

/-- A `keys-v3` value: the row's sequence above its charge. -/
def packed (sequence charge : ℕ) : Except StoreError ℕ :=
  if MAX_SEQUENCE < sequence then .error (.invalid "v3 head overflow")
  else if MAX_CHARGE < charge then .error .tooLarge
  else .ok (sequence <<< CHARGE_BITS ||| charge)

/-- The sequence and the charge of a packed value. -/
def unpacked (value : ℕ) : ℕ × ℕ := (value >>> CHARGE_BITS, value &&& MAX_CHARGE)

theorem unpacked_packed {s c p : ℕ} (h : packed s c = .ok p) : unpacked p = (s, c) := by
  unfold packed at h
  split_ifs at h with hs hc
  have hlt : c < 2 ^ CHARGE_BITS := by
    have : MAX_CHARGE + 1 = 2 ^ CHARGE_BITS := rfl
    omega
  injection h with h
  subst h
  rw [← Nat.shiftLeft_add_eq_or_of_lt hlt, unpacked, MAX_CHARGE, Nat.and_two_pow_sub_one_eq_mod,
    Nat.shiftLeft_eq, Nat.shiftRight_eq_div_pow]
  congr 1
  · rw [mul_comm, Nat.mul_add_div (Nat.two_pow_pos _), Nat.div_eq_of_lt hlt, add_zero]
  · rw [Nat.mul_add_mod', Nat.mod_eq_of_lt hlt]

/-! ## Tables and metadata -/

/-- The two indexes of the live rows. -/
structure Index where
  /-- `keys-v3` -/
  keys : Table String ℕ
  /-- `sequence-v3` -/
  sequence : Table ℕ String
  deriving DecidableEq

def Index.empty : Index := ⟨Table.empty, Table.empty⟩

/-- Every table of one library. -/
structure Db extends Index where
  /-- `charges-v3`, of stores charged by an older formula. -/
  charges : Option (Table String ℕ)
  format : Option ℕ
  head : Option ℕ
  wireMin : Option ℕ
  charge : Option ℕ
  liveBytes : Option ℕ
  migrationGeneration : Option ℕ
  /-- Present in a library that was started as a visitor's. -/
  visitor : Option ℕ
  token : Option Hash
  generation : Option String
  member : Option Hash
  /-- `exclusive-operation-lock` -/
  lock : Option String
  /-- The records under `exclusive:`. -/
  records : Table String String
  deriving DecidableEq

/-- A database file with no tables yet. -/
def Db.empty : Db where
  toIndex := Index.empty
  charges := none
  format := none
  head := none
  wireMin := none
  charge := none
  liveBytes := none
  migrationGeneration := none
  visitor := none
  token := none
  generation := none
  member := none
  lock := none
  records := Table.empty

def FORMAT_VERSION : ℕ := 3
def CHARGE_PACKED : ℕ := 3

/-- The protocol metadata a commit leaves and a read answers from. -/
structure Protocol where
  head : ℕ
  wireMin : ℕ
  generation : String
  migrationGeneration : ℕ
  deriving DecidableEq

def readProtocol (db : Db) : Except StoreError Protocol :=
  match db.head, db.generation with
  | none, _ => .error (.invalid "v3 head is missing")
  | some _, none => .error (.invalid "v3 generation is missing")
  | some head, some generation =>
    .ok ⟨head, db.wireMin.getD 2, generation, db.migrationGeneration.getD 0⟩

/-- The exclusive-operation fence after a mutation: refused rather than wrapped. -/
def nextMigration (current : ℕ) : Except StoreError ℕ :=
  if current + 1 ≤ MAX_SAFE_INTEGER then .ok (current + 1)
  else .error (.invalid "profile migration generation exhausted")

/-- Values of the machine's 64-bit counters. -/
def U64 : ℕ := 2 ^ 64

/-- Keys a batch or a rewrite may name: valid, and each once. -/
def validKeys (keys : List String) : Bool := keys.all validHexId && decide keys.Nodup

end DenEdge
