import DenEdge.Base.Cas
import DenEdge.Store.Db

/-!
# Batches and rewrites

`applyTiered` is one compare-and-set batch, in the two passes of the source: every write is judged against the
tables as the transaction found them, then the accepted ones are installed. `rewrite` replaces every row at once.

* `batchChecks`: the checks before the first row is looked at.
* `judge`: one write of the first pass; `judgeAll` the pass.
* `install`: one accepted write of the second pass.
-/

namespace DenEdge

/-- One compare-and-set: `base` is the sequence the writer last saw of the key, `0` for none. -/
abbrev Write := Cas.Write String String

structure StoredRow where
  sequence : ℕ
  fragment : String

/-- A write whose base is not the live sequence, with the row that is. -/
structure Conflict where
  key : String
  current : Option StoredRow

structure BatchResult where
  protocol : Protocol
  head : ℕ
  applied : List (String × ℕ)
  conflicts : List Conflict

/-- The visitor tier: the caps of a visitor library, and whether a write that starts a library makes it one. -/
structure VisitorTier where
  mark : Bool
  liveCap : ℕ
  maxRows : ℕ

/-- The request's wire support and the generation it was validated under. -/
structure WriteAuthority where
  wire : Option ℕ
  generation : Option String

/-! ## The checks before the rows -/

/-- What a batch that passes the checks goes on with. -/
structure Admission where
  generation : String
  head : ℕ
  currentMin : ℕ
  effectiveMin : ℕ

/-- A first batch sets the library's wire minimum; a later one is held to it. -/
def effectiveMin (head currentMin wireMin : ℕ) : ℕ := if head = 0 then max currentMin wireMin else currentMin

def batchChecks (db : Db) (writes : List Write) (wireMin : ℕ) (authority : WriteAuthority) :
    Except StoreError Admission :=
  if MAX_WRITES < writes.length ∨ ¬ validKeys (writes.map Cas.Write.key) then
    .error (.invalid "invalid or duplicate v3 write")
  else if db.lock.isSome then .error .locked
  else match db.generation, db.head with
    | none, _ => .error (.invalid "v3 generation is missing")
    | some _, none => .error (.invalid "v3 head is missing")
    | some generation, some head =>
      let currentMin := db.wireMin.getD 2
      let effective := effectiveMin head currentMin wireMin
      if 3 ≤ effective ∧ authority.wire.getD 0 < effective then .error (.upgradeRequired effective)
      else if authority.generation.any (fun expected => generation ≠ expected) then .error .generationChanged
      else if writes.any (fun write => !valueFits write.value effective) then .error .tooLarge
      else .ok ⟨generation, head, currentMin, effective⟩

/-- The caps a batch is held to: a visitor's, if the library is marked or this batch marks it. -/
def caps (db : Db) (head liveCap : ℕ) (tier : VisitorTier) : ℕ × ℕ :=
  if db.visitor.isSome || (head == 0 && tier.mark) then (min liveCap tier.liveCap, min MAX_ROWS tier.maxRows)
  else (liveCap, MAX_ROWS)

/-! ## The first pass -/

structure Accepted where
  key : String
  value : String
  old : Option ℕ
  new : ℕ

/-- What the first pass carries from write to write. -/
structure Pass where
  head : ℕ
  liveBytes : ℕ
  newRows : ℕ
  accepted : List Accepted
  conflicts : List Conflict

variable (index : Index)

/-- The row a conflict answers with. -/
def conflictRow : Option ℕ → Except StoreError (Option StoredRow)
  | none => .ok none
  | some sequence =>
    match index.sequence.get sequence with
    | none => .error (.invalid "v3 key points to no fragment")
    | some fragment => .ok (some ⟨sequence, fragment⟩)

/-- The pass with a write accepted at the next sequence, over the sequence and charge its key had. -/
def Pass.accept (pass : Pass) (current : Option (ℕ × ℕ)) (write : Write) : Pass where
  head := pass.head + 1
  liveBytes := pass.liveBytes - (current.map Prod.snd).getD 0 + storedCharge write.key write.value
  newRows := pass.newRows + (if current.isNone then 1 else 0)
  accepted := pass.accepted ++ [⟨write.key, write.value, current.map Prod.fst, pass.head + 1⟩]
  conflicts := pass.conflicts

/-- One write of the first pass, judged against the tables before the batch. -/
def judge (pass : Pass) (write : Write) : Except StoreError Pass :=
  let current := (index.keys.get write.key).map unpacked
  let currentSequence := current.map Prod.fst
  if currentSequence.getD 0 ≠ write.base then do
    let row ← conflictRow index currentSequence
    .ok { pass with conflicts := pass.conflicts ++ [⟨write.key, row⟩] }
  else if U64 ≤ pass.head + 1 then .error (.invalid "v3 head overflow")
  else
    let oldCharge := (current.map Prod.snd).getD 0
    if pass.liveBytes < oldCharge ∨ U64 ≤ pass.liveBytes - oldCharge + storedCharge write.key write.value then
      .error (.invalid "v3 live-byte accounting overflow")
    else .ok (pass.accept current write)

def judgeAll (pass : Pass) (writes : List Write) : Except StoreError Pass :=
  writes.foldlM (judge index) pass

/-! ## The second pass -/

/-- Bind a key and its sequence, over the sequence the key had. -/
def Index.put (old : Option ℕ) (key : String) (value : String) (seq p : ℕ) : Index where
  keys := index.keys.insert key p
  sequence := ((old.elim index.sequence index.sequence.remove)).insert seq (rowFragment seq key value)

def install (a : Accepted) : Except StoreError Index := do
  let p ← packed a.new (storedCharge a.key a.value)
  .ok (index.put a.old a.key a.value a.new p)

def installAll (accepted : List Accepted) : Except StoreError Index :=
  accepted.foldlM install index

/-- What a batch commits once its rows are installed. The first accepted write of a library sets its wire minimum
and, in the visitor tier, its mark. -/
def batchCommit (db : Db) (tier : VisitorTier) (a : Admission) (pass : Pass) (index : Index)
    (migration : ℕ) : Db :=
  let started := a.head = 0 ∧ pass.accepted ≠ []
  { db with
    toIndex := index
    head := some pass.head
    liveBytes := some pass.liveBytes
    wireMin := if started then some a.effectiveMin else db.wireMin
    visitor := if started ∧ tier.mark then some 1 else db.visitor
    migrationGeneration := if pass.accepted = [] then db.migrationGeneration else some migration }

/-- A batch moves the exclusive-operation fence if it accepted anything. -/
def batchMigration (db : Db) (pass : Pass) : Except StoreError ℕ :=
  if pass.accepted = [] then .ok (db.migrationGeneration.getD 0)
  else nextMigration (db.migrationGeneration.getD 0)

/-- The answer to a batch. An all-conflict first batch does not publish its requested minimum. -/
def batchAnswer (a : Admission) (pass : Pass) (migration : ℕ) : BatchResult where
  protocol := {
    head := pass.head
    wireMin := if a.head = 0 ∧ pass.accepted = [] then a.currentMin else a.effectiveMin
    generation := a.generation
    migrationGeneration := migration }
  head := pass.head
  applied := pass.accepted.map (fun x => (x.key, x.new))
  conflicts := pass.conflicts

/-- A compare-and-set batch under the caps and the mark of a tier. -/
def applyTiered (db : Db) (writes : List Write) (liveCap wireMin : ℕ) (tier : VisitorTier)
    (authority : WriteAuthority) : Except StoreError (Db × BatchResult) := do
  let a ← batchChecks db writes wireMin authority
  let pass ← judgeAll db.toIndex ⟨a.head, db.liveBytes.getD 0, 0, [], []⟩ writes
  let (liveCap, maxRows) := caps db a.head liveCap tier
  if maxRows < db.keys.len + pass.newRows ∨ liveCap < pass.liveBytes then .error .full
  else
    let index ← installAll db.toIndex pass.accepted
    let migration ← batchMigration db pass
    .ok (batchCommit db tier a pass index migration, batchAnswer a pass migration)

/-! ## Rewrites -/

structure RewriteRow where
  key : String
  value : String

/-- The rows with their sequences from `base + 1`, and the bytes they come to. -/
def prepareRows (base : ℕ) (liveBytes : ℕ) : List RewriteRow → Except StoreError (List Accepted × ℕ)
  | [] => .ok ([], liveBytes)
  | row :: rows =>
    if U64 ≤ base + 1 then .error (.invalid "v3 head overflow")
    else if U64 ≤ liveBytes + storedCharge row.key row.value then .error .full
    else do
      let (prepared, total) ← prepareRows (base + 1) (liveBytes + storedCharge row.key row.value) rows
      .ok (⟨row.key, row.value, none, base + 1⟩ :: prepared, total)

/-- Replace every row, under a fresh generation drawn by the caller. -/
def rewrite (db : Db) (base : ℕ) (rows : List RewriteRow) (wireMin liveCap : ℕ) (fresh : String) :
    Except StoreError (Db × Protocol) :=
  if MAX_ROWS < rows.length ∨ ¬ validKeys (rows.map RewriteRow.key) then .error (.invalid "invalid rewrite rows")
  else do
    let (prepared, liveBytes) ← prepareRows base 0 rows
    if liveCap < liveBytes then .error .full
    else if db.lock.isSome then .error .locked
    else match db.head with
      | none => .error (.invalid "v3 head is missing")
      | some current =>
        if current ≠ base then .error (.invalid ("head_moved:" ++ toString current))
        else do
          let effective := max (db.wireMin.getD 2) wireMin
          let migration ← nextMigration (db.migrationGeneration.getD 0)
          if U64 ≤ base + rows.length then .error (.invalid "v3 head overflow")
          else if rows.any (fun row => !valueFits row.value effective) then .error .tooLarge
          else do
            let index ← installAll Index.empty prepared
            let head := base + rows.length
            .ok ({ db with
                toIndex := index, head := some head, liveBytes := some liveBytes, wireMin := some effective,
                migrationGeneration := some migration, generation := some fresh },
              ⟨head, effective, fresh, migration⟩)

end DenEdge
