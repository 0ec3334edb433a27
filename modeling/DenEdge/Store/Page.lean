import DenEdge.Store.Db
import DenEdge.Store.Batch

/-!
# Pages of changes

`range` answers the rows above a sequence in order, cut at a number of rows and at a number of bytes.
-/

namespace DenEdge

structure RangePage where
  protocol : Protocol
  entries : List StoredRow
  head : ℕ
  more : Bool

/-- The rows of one page and whether a row is left, given how many rows and bytes it has so far. The first row is
never refused for its bytes. -/
def rangeLoop (limit : ℕ) : ℕ → ℕ → List (ℕ × String) → List StoredRow × Bool
  | _, _, [] => ([], false)
  | count, pageBytes, (sequence, fragment) :: rows =>
    if count < limit then
      let cost := bytes fragment + (if count = 0 then 0 else 1)
      if count ≠ 0 ∧ PAGE_BYTES < pageBytes + cost then ([], true)
      else
        let rest := rangeLoop limit (count + 1) (pageBytes + cost) rows
        (⟨sequence, fragment⟩ :: rest.1, rest.2)
    else ([], true)

def range (db : Db) (since limit : ℕ) : Except StoreError RangePage := do
  let protocol ← readProtocol db
  let (entries, more) := rangeLoop (min limit MAX_LIMIT) 0 128 (db.sequence.above since)
  .ok ⟨protocol, entries, protocol.head, more⟩

/-- A page on which its limit of rows fits, all of them short, is cut at the limit only. -/
theorem rangeLoop_length {limit rowBytes : ℕ} {rows : List (ℕ × String)}
    (hrows : ∀ e ∈ rows, bytes e.2 < rowBytes)
    {count pageBytes : ℕ} (h : pageBytes + (limit - count) * rowBytes ≤ PAGE_BYTES) :
    (rangeLoop limit count pageBytes rows).1.length = min (limit - count) rows.length := by
  induction rows generalizing count pageBytes with
  | nil => simp [rangeLoop]
  | cons e rows ih =>
    have hrow := hrows e (List.mem_cons_self ..)
    rw [rangeLoop]
    by_cases hcount : count < limit
    · have hleft : limit - count = limit - (count + 1) + 1 := by omega
      have hcost : (if count = 0 then 0 else 1) ≤ 1 := by split <;> omega
      rw [hleft, Nat.succ_mul] at h
      rw [if_pos hcount, if_neg (by omega)]
      simp only [List.length_cons]
      rw [ih (fun e he => hrows e (List.mem_cons_of_mem _ he)) (by omega)]
      omega
    · rw [if_neg hcount]
      simp only [List.length_nil]
      omega

end DenEdge
