import DenEdge.Store.Batch

/-!
# Opening, importing and the other transactions of a store

The operations that are not batches: opening a store (fresh, or recounting one charged by an older formula),
matching it with the protocol remembered outside its file, registering a member, the one compare-and-set commit of
exclusive operations, importing a v2 log, and reading a page.
-/

namespace DenEdge

/-! ## Opening -/

/-- One key of a store with bare sequences: its packed value and its charge, from its own fragment. -/
def rechargeRow (codec : FragmentCodec) (sequence : Table ℕ String) (key : String) (seq : ℕ) :
    Except StoreError (ℕ × ℕ) :=
  match sequence.get seq with
  | none => .error (.invalid "v3 key points to no fragment")
  | some fragment =>
    match codec.decode fragment with
    | none => .error (.invalid ("v3 fragment is not a row: " ++ codec.why fragment))
    | some (k, _, v) =>
      if k ≠ key then .error (.invalid "v3 key and fragment disagree")
      else do
        let p ← packed seq (storedCharge k v)
        .ok (p, storedCharge k v)

/-- The recounted rows, in the order of the keys, and the bytes they come to. -/
def rechargeRows (codec : FragmentCodec) (sequence : Table ℕ String) :
    List (String × ℕ) → Except StoreError (List (String × ℕ) × ℕ)
  | [] => .ok ([], 0)
  | (key, seq) :: rest => do
    let (p, charge) ← rechargeRow codec sequence key seq
    let (rows, live) ← rechargeRows codec sequence rest
    .ok ((key, p) :: rows, charge + live)

/-- Recount a store charged by an older formula as stored bytes packed into the key index. -/
def recharge (codec : FragmentCodec) (db : Db) : Except StoreError Db :=
  if db.charge = some CHARGE_PACKED then .ok db
  else do
    let (rows, live) ← rechargeRows codec db.sequence db.keys.entries
    .ok { db with
      keys := rows.foldl (fun keys row => keys.insert row.1 row.2) db.keys
      charges := none
      liveBytes := some live
      charge := some CHARGE_PACKED }

/-- The tables a new library is opened with. -/
def freshDb (token : Hash) (member : Option Hash) (fresh : String) : Db :=
  { Db.empty with
    format := some FORMAT_VERSION
    head := some 0
    wireMin := some 2
    charge := some CHARGE_PACKED
    liveBytes := some 0
    migrationGeneration := some 0
    token := some token
    generation := some fresh
    member := member }

/-- Open a store: the tables it leaves and the member hash it caches. `fresh` is the generation drawn if one is
needed. -/
def openStore (codec : FragmentCodec) (db : Db) (token : Hash) (initialMember : Option Hash) (fresh : String) :
    Except StoreError (Db × Option Hash) :=
  match db.format with
  | none => .ok (freshDb token initialMember fresh, initialMember)
  | some version =>
    if version ≠ FORMAT_VERSION then .error (.invalid ("unsupported library format " ++ toString version))
    else match db.token with
      | none => .error (.invalid "v3 token is missing")
      | some stored =>
        if stored ≠ token then .error .forbidden
        else do
          let db' ← recharge codec { db with
            wireMin := some (db.wireMin.getD 2)
            migrationGeneration := some (db.migrationGeneration.getD 0)
            generation := some (db.generation.getD fresh) }
          .ok (db', db.member)

/-! ## The protocol remembered outside the file -/

/-- What the index outside the library's file last observed of it. -/
structure IndexedProtocol where
  generation : String
  head : ℕ
  wireMin : ℕ
  migrationGeneration : ℕ
  deriving DecidableEq

/-- Whether the file is not the one the index last saw. -/
def restored (recorded : Option IndexedProtocol) (newlyCreated : Bool) (current : Protocol) : Bool :=
  !newlyCreated && recorded.all (fun known => known.generation ≠ current.generation || known.head ≠ current.head)

/-- The fence moves past everything seen, if the file was restored or is behind. -/
def reconciledMigration (isRestored : Bool) (current remembered : ℕ) : Except StoreError ℕ :=
  if isRestored ∨ current < remembered then nextMigration (max current remembered) else .ok current

def reconcileProtocol (db : Db) (recorded : Option IndexedProtocol) (newlyCreated : Bool) (fresh : String) :
    Except StoreError (Db × Protocol) := do
  let current ← readProtocol db
  let isRestored := restored recorded newlyCreated current
  let rememberedMin := (recorded.map IndexedProtocol.wireMin).getD 2
  let rememberedMigration := (recorded.map IndexedProtocol.migrationGeneration).getD 0
  let migration ← reconciledMigration isRestored current.migrationGeneration rememberedMigration
  if ¬ isRestored ∧ rememberedMin ≤ current.wireMin ∧ migration = current.migrationGeneration then
    .ok (db, current)
  else
    let generation := if isRestored then fresh else current.generation
    let wireMin := max current.wireMin rememberedMin
    .ok (
      { db with wireMin := some wireMin, migrationGeneration := some migration, generation := some generation },
      ⟨current.head, wireMin, generation, migration⟩)

/-! ## Members and exclusive operations -/

/-- Register a member hash against the one the open handle caches. -/
def registerMember (db : Db) (cached : Option Hash) (member : Hash) : Except StoreError (Db × Bool) :=
  if db.lock.isSome then .error .locked
  else match cached with
    | some stored => if stored = member then .ok (db, false) else .error (.invalid "member_already_registered")
    | none => do
      let migration ← nextMigration (db.migrationGeneration.getD 0)
      .ok ({ db with member := some member, migrationGeneration := some migration }, true)

inductive LockExpect where
  | any
  | absent
  | held (attempt : String)

inductive LockChange where
  | keep
  | set (attempt : String)
  | clear

/-- One compare-and-set commit on the lock key and the records beside it. -/
structure ExclusiveEdit where
  expectLock : LockExpect
  expectSource : Option (ℕ × ℕ)
  expectRecords : List (String × Option String)
  lock : LockChange
  put : List (String × String)
  remove : List String

/-- The names exclusive operations may use. -/
def exclusiveName (key : String) : Bool := "exclusive:".toList.isPrefixOf key.toList

def ExclusiveEdit.names (edit : ExclusiveEdit) : List String :=
  edit.put.map Prod.fst ++ edit.remove ++ edit.expectRecords.map Prod.fst

/-- Whether the lock key is as an edit expects it. -/
def LockExpect.admits : LockExpect → Option String → Bool
  | .any, _ => true
  | .absent, current => current.isNone
  | .held attempt, current => current = some attempt

def LockChange.apply : LockChange → Option String → Option String
  | .keep, current => current
  | .set attempt, _ => some attempt
  | .clear, _ => none

def exclusiveCommit (db : Db) (edit : ExclusiveEdit) : Except StoreError Db :=
  if ¬ edit.names.all exclusiveName then .error (.invalid "not an exclusive-operation record")
  else if edit.expectSource.isSome ∧ db.head = none then .error (.invalid "v3 head is missing")
  else if edit.expectSource.any (fun source => (db.migrationGeneration.getD 0, db.head.getD 0) ≠ source) then
    .error (.invalid "migration_source_changed")
  else if ¬ edit.expectLock.admits db.lock then .error .locked
  else if edit.expectRecords.any (fun expected => db.records.get expected.1 ≠ expected.2) then
    .error (.invalid "exclusive_precondition")
  else
    let removed := edit.remove.foldl Table.remove db.records
    .ok { db with
      records := edit.put.foldl (fun records r => records.insert r.1 r.2) removed
      lock := edit.lock.apply db.lock }

/-! ## The v2 log and its import -/

structure V2Row where
  seq : ℕ
  v : String
  fragment : String

/-- A v2 library as its log replays: the newest row of each key, and the greatest sequence seen. -/
structure V2Library where
  tokenHash : Hash
  memberHash : Option Hash
  head : ℕ
  rows : Table String V2Row
  bytes : ℕ

/-- One write of a v2 log. -/
structure Line where
  s : ℕ
  k : String
  v : String

def LIBRARY_OVERHEAD : ℕ := 512
def ROW_OVERHEAD : ℕ := 192

/-- What a v2 row counts in memory. -/
def rowBytes (k v : String) (fragmentBytes : ℕ) : ℕ := 2 * (bytes k + bytes v) + fragmentBytes + ROW_OVERHEAD

/-- Replay one line: the row it writes replaces the row its key had. -/
def replayLine (libraryBytes : ℕ) (lib : V2Library) (line : Line) : Except String V2Library :=
  if ¬ validHexId line.k ∨ MAX_VALUE < bytes line.v then .error "library exceeds its memory budget"
  else
    let fragment := rowFragment line.s line.k line.v
    let previous := (lib.rows.get line.k).elim 0 (fun r => rowBytes line.k r.v (bytes r.fragment))
    let needed := lib.bytes - previous + rowBytes line.k line.v (bytes fragment)
    if libraryBytes < needed ∨ (lib.rows.get line.k = none ∧ MAX_ROWS ≤ lib.rows.len) then
      .error "library exceeds its memory budget"
    else .ok { lib with
      head := max lib.head line.s
      rows := lib.rows.insert line.k ⟨line.s, line.v, fragment⟩
      bytes := needed }

/-- Replay a log whose header named these hashes. -/
def replay (libraryBytes : ℕ) (token : Hash) (member : Option Hash) (lines : List Line) :
    Except String V2Library :=
  lines.foldlM (replayLine libraryBytes) ⟨token, member, 0, Table.empty, LIBRARY_OVERHEAD⟩

/-- One imported row, over the rows before it. -/
def importRow (acc : Index × ℕ) (entry : String × V2Row) : Except StoreError (Index × ℕ) := do
  let charge := storedCharge entry.1 entry.2.v
  let p ← packed entry.2.seq charge
  .ok (⟨acc.1.keys.insert entry.1 p, acc.1.sequence.insert entry.2.seq entry.2.fragment⟩, acc.2 + charge)

/-- The database an import builds beside the log. -/
def importDb (library : V2Library) (fresh : String) : Except StoreError Db := do
  let (index, live) ← library.rows.entries.foldlM importRow (Index.empty, 0)
  .ok { freshDb library.tokenHash library.memberHash fresh with
    toIndex := index, head := some library.head, liveBytes := some live }

end DenEdge
