import Mathlib.Data.String.Basic
import Mathlib.Tactic

/-!
# Rows as a browser has them

The rows of a library once opened: v4 documents, which den-core names, merges and encodes (`Core`), and settings
rows, whose values are stamped. What a stored value opens as is a `Cell`; a value that is not of the key it is
stored under opens as unreadable (`openAs`), so a row is always under its own name.

* `Core.merge`, `believe`: as the browser applies them.
* `Core.Joins`: what is assumed of den-core's merge, that it is a join on rows of one name.
-/

namespace DenEdge.Client

/-- A stamp: milliseconds, a counter, and the device. -/
abbrev Stamp := ℕ × ℕ × String

def ZERO_STAMP : Stamp := (0, 0, "")

def FUTURE_TOLERANCE_MS : ℕ := 24 * 60 * 60 * 1000

/-- The wire this build speaks, which is the format of the documents it writes. -/
def WIRE : ℕ := 4

structure Setting (V : Type) where
  value : V
  stamp : Stamp
  deriving DecidableEq

structure Settings (V : Type) where
  name : String
  values : List (String × Setting V)
  deriving DecidableEq

inductive Row (D V : Type) where
  | doc (d : D)
  | set (s : Settings V)
  deriving DecidableEq

/-- What den-core and the assistant policy compute. -/
structure Core (D V : Type) where
  documentName : D → String
  format : D → ℕ
  mergeDocument : D → D → D
  mergeSettings : Settings V → Settings V → Settings V
  /-- Whether a document encodes within the cap of a merge. -/
  encodes : D → Bool
  /-- A grant revoked at a time; `none` where its value is no grant. -/
  assistantRevoke : String → V → ℕ → Option V

variable {D V P : Type} (core : Core D V)

def Core.rowName : Row D V → String
  | .doc d => core.documentName d
  | .set s => "set:" ++ s.name

/-- A document of a newer format: read, never written. -/
def Core.newer : Row D V → Bool
  | .doc d => WIRE < core.format d
  | .set _ => false

/-- Whether a row can be stored: a document over the cap cannot. -/
def Core.fits : Row D V → Bool
  | .doc d => core.encodes d
  | .set _ => true

/-- Two versions of one row. A document of a newer format is never merged: the newer of the two stands. -/
def Core.merge : Row D V → Row D V → Row D V
  | .doc theirs, .doc ours =>
    if WIRE < core.format theirs ∨ WIRE < core.format ours then
      if core.format theirs < core.format ours then .doc ours else .doc theirs
    else .doc (core.mergeDocument theirs ours)
  | .set theirs, .set ours => .set (core.mergeSettings theirs ours)
  | theirs, _ => theirs

/-- A stamp more than a day ahead of the clock is not believed. -/
def believeStamp (now : ℕ) (stamp : Stamp) : Stamp :=
  if now + FUTURE_TOLERANCE_MS < stamp.1 then ZERO_STAMP else stamp

def believe (now : ℕ) : Row D V → Row D V
  | .doc d => .doc d
  | .set s =>
    .set { s with values := s.values.map fun (key, v) => (key, { v with stamp := believeStamp now v.stamp }) }

/-- No stamp of the row is more than a day ahead of the clock. -/
def Timely (now : ℕ) : Row D V → Prop
  | .doc _ => True
  | .set s => ∀ v ∈ s.values, v.2.stamp.1 ≤ now + FUTURE_TOLERANCE_MS

theorem believe_of_timely {now : ℕ} {row : Row D V} (h : Timely now row) : believe now row = row := by
  cases row with
  | doc d => rfl
  | set s =>
    have hvalues : s.values.map (fun (key, v) => (key, { v with stamp := believeStamp now v.stamp })) =
        s.values := by
      refine (List.map_congr_left fun v hv => ?_).trans (List.map_id _)
      have hstamp : believeStamp now v.2.stamp = v.2.stamp := if_neg (not_lt.mpr (h v hv))
      simp [hstamp]
    simp only [believe, hvalues]

theorem Timely.mono {now later : ℕ} (hle : now ≤ later) {row : Row D V} (h : Timely now row) :
    Timely later row := by
  cases row with
  | doc d => trivial
  | set s => exact fun v hv => (h v hv).trans (Nat.add_le_add_right hle _)

/-! ## What a stored value opens as -/

inductive Cell (D V P : Type) where
  /-- A document or a settings row. -/
  | row (r : Row D V)
  /-- A document of a newer format: what this build reads of it, and its plaintext. -/
  | newer (d : D) (plaintext : P)
  /-- A row of a form before v4, which a restored backup may hold. -/
  | preV4
  | profileDirectory (plaintext : P)
  | invalidProfileDirectory
  | kidTitleApprovals
  /-- A kind this build does not know; `preV4` where it is one from before v4. -/
  | unknown (preV4 : Bool)
  | newerFraming
  | unreadable (preV4 : Bool)
  deriving DecidableEq

/-- A value under a key: one whose name is another's is unreadable, and a document's cell is by its format. -/
def openAs (key : String) (cell : Cell D V P) : Cell D V P :=
  match cell with
  | .row r => if core.rowName r = key ∧ core.newer r = false then cell else .unreadable false
  | .newer d _ => if core.documentName d = key ∧ WIRE < core.format d then cell else .unreadable false
  | _ => cell

/-- A value that opens under the key it is stored at. -/
def Cell.Named (key : String) : Cell D V P → Prop
  | .row r => core.rowName r = key ∧ core.newer r = false
  | .newer d _ => core.documentName d = key ∧ WIRE < core.format d
  | _ => True

theorem openAs_named (key : String) (cell : Cell D V P) : (openAs core key cell).Named core key := by
  unfold openAs
  split
  · split_ifs with h
    · exact h
    · trivial
  · split_ifs with h
    · exact h
    · trivial
  · rename_i hrow hnewer
    cases cell with
    | row r => exact absurd rfl (hrow r)
    | newer d p => exact absurd rfl (hnewer d p)
    | _ => trivial

/-! ## What is assumed of den-core -/

/-- den-core's merge is a join on rows of one name, in an order on rows, and takes every stamp from one of the
two. -/
structure Core.Joins (le : Row D V → Row D V → Prop) : Prop where
  refl : ∀ a, le a a
  trans : ∀ {a b c}, le a b → le b c → le a c
  left : ∀ {a b}, core.rowName a = core.rowName b → core.newer a = false → core.newer b = false →
    le a (core.merge a b)
  right : ∀ {a b}, core.rowName a = core.rowName b → core.newer a = false → core.newer b = false →
    le b (core.merge a b)
  lub : ∀ {a b c}, core.rowName a = core.rowName b → core.newer a = false → core.newer b = false →
    le a c → le b c → le (core.merge a b) c
  name : ∀ {a b}, core.rowName a = core.rowName b → core.rowName (core.merge a b) = core.rowName a
  format : ∀ {a b}, core.newer a = false → core.newer b = false → core.newer (core.merge a b) = false
  timely : ∀ {now a b}, Timely now a → Timely now b → Timely now (core.merge a b)

end DenEdge.Client
