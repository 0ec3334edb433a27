import DenEdge.Base.Except
import DenEdge.Store.Lifecycle

/-!
# The files of a library, and who holds it

What the server keeps of one library (`LibFiles`), which of it is the authority, and the questions the rest of the
server asks: who holds a library (`isMember`), whether it is a visitor's (`libraryIsVisitor`), and whether it is a
household's (`isHouseholdMember`, `withCurrentHouseholdMember`). A database is taken as an open handle sees it:
opening one is in `Store.Lifecycle`, and changes neither its credentials nor its mark.
-/

namespace DenEdge

/-- A staged rewrite, beside the library until it is committed, aborted or left idle. -/
structure RewriteStage where
  id : String
  base : ℕ
  touched : ℕ
  rows : List RewriteRow

/-- The files of one library. -/
structure LibFiles where
  /-- The retirement marker's text. -/
  moved : Option String
  /-- Whether the format marker says v3. -/
  formatV3 : Bool
  /-- The v2 log, as it replays. -/
  log : Option V2Library
  db : Option Db
  stage : Option RewriteStage

def LibFiles.absent : LibFiles := ⟨none, false, none, none, none⟩

/-- The files of every library, by id. -/
abbrev Files := String → LibFiles

/-- Who may start a library: anyone (`open`), a holder of another, or anyone but as a visitor. -/
inductive NewLibraries where
  | anyone
  | members
  | visitors
  deriving DecidableEq

/-- The server's configuration, and what it takes from elsewhere: SHA-256, the store's own generation, and the
guest grants, which may have reserved an id for a token. -/
structure Config where
  newLibraries : NewLibraries
  storedBytes : ℕ
  visitorLibraryMaxBytes : ℕ
  visitorLibraryMaxRows : ℕ
  storeGeneration : String
  sha256 : String → Hash
  reservedFor : String → Hash → Bool
  /-- The limit is a machine word. -/
  storedBytes_lt : storedBytes < U64

/-- A generation as clients see it: the store's own, and the library's. -/
def fullGeneration (cfg : Config) (library : String) : String := cfg.storeGeneration ++ "." ++ library

/-! ## Authority -/

inductive Authority where
  | moved
  | v3
  | v2
  deriving DecidableEq

variable (f : LibFiles)

/-- Which files speak for a library. A database with neither a marker nor a log beside it was made by a first
write that was dropped, and is published. -/
def authority : Authority :=
  if f.moved.isSome then .moved
  else if f.formatV3 || (f.log.isNone && f.db.isSome) then .v3
  else .v2

/-- The files once the authority has been asked for: an unpublished database is published. -/
def published : LibFiles :=
  { f with formatV3 := f.formatV3 || (f.moved.isNone && f.log.isNone && f.db.isSome) }

/-- The token and member hashes of a database; `none` where there is no database. -/
def credentials : Except StoreError (Option (Hash × Option Hash)) :=
  match f.db with
  | none => .ok none
  | some db =>
    match db.token with
    | none => .error (.invalid "v3 token is missing")
    | some token => .ok (some (token, db.member))

/-- The database of a published library, for a holder of its token. -/
def existingLibrary (token : Hash) : Except StoreError Db :=
  match f.db with
  | none => .error (.invalid "published v3 database is missing")
  | some db => if db.token = some token then .ok db else .error .forbidden

/-- The protocol of a library that has a database. -/
def protocolFor : Except StoreError (Option Protocol) := do
  match ← credentials f with
  | none => .ok none
  | some (token, _) =>
    let db ← existingLibrary f token
    let protocol ← readProtocol db
    .ok (some protocol)

/-- The token and member hashes of a library; `none` for one that is retired or not there. -/
def headerOf : Except StoreError (Option (Hash × Option Hash)) :=
  match authority f with
  | .moved => .ok none
  | .v3 => credentials f
  | .v2 => .ok (f.log.map fun log => (log.tokenHash, log.memberHash))

/-! ## Proofs of membership -/

/-- A member header `<id>:<token>`, split at its first colon. -/
abbrev Proof := String × String

/-- What a token may be. -/
def tokenShape (token : String) : Bool := token ≠ "" && bytes token ≤ 256

/-- Whether a library takes the member token whose hash this is: its member hash, or its token's where none is
registered. -/
def holdsMemberHash (hash : Hash) : Except StoreError Bool := do
  let header ← headerOf f
  .ok (header.any fun (token, member) => member.getD token = hash)

/-- Whether a proof is of a library here. A library that cannot be read proves nothing. -/
def isMember (cfg : Config) (files : Files) : Option Proof → Bool
  | none => false
  | some (id, token) =>
    validHexId id && tokenShape token &&
      match holdsMemberHash (files id) (cfg.sha256 token) with
      | .ok holds => holds
      | .error _ => false

/-- Whether a proof is of another library than the one being started. -/
def holdsAnother (cfg : Config) (files : Files) (id : String) : Option Proof → Except StoreError Bool
  | none => .ok false
  | some (other, token) =>
    if other = id ∨ ¬ validHexId other ∨ ¬ tokenShape token then .ok false
    else holdsMemberHash (files other) (cfg.sha256 token)

/-- Whether a library was started as a visitor's. One with no database is a member's. -/
def libraryIsVisitor : Except StoreError Bool := do
  match ← credentials f with
  | none => .ok false
  | some (token, _) =>
    let db ← existingLibrary f token
    .ok db.visitor.isSome

/-- Whether a proof is of a library that is not a visitor's. One whose tier cannot be read is not a household's.
-/
def isHouseholdMember (cfg : Config) (files : Files) (member : Option Proof) : Bool :=
  isMember cfg files member &&
    match member with
    | none => false
    | some (id, _) =>
      match libraryIsVisitor (files id) with
      | .ok visitor => !visitor
      | .error _ => false

/-- Whether a household's mutation is let through to its commit; refused with `403 forbidden` otherwise. -/
def withCurrentHouseholdMember (cfg : Config) (files : Files) (id : String) : Option Proof → Bool
  | none => false
  | some (claimed, token) =>
    if claimed ≠ id ∨ ¬ validHexId id ∨ ¬ tokenShape token then false
    else
      match holdsMemberHash (files id) (cfg.sha256 token) with
      | .ok true =>
        match libraryIsVisitor (files id) with
        | .ok visitor => !visitor
        | .error _ => false
      | _ => false

/-! ## What the answers rest on -/

/-- Both questions come to the same: the proof is valid and the mark is absent. -/
theorem isHouseholdMember_iff {cfg : Config} {files : Files} {id token : String} :
    isHouseholdMember cfg files (some (id, token)) = true ↔
      validHexId id = true ∧ tokenShape token = true ∧
        holdsMemberHash (files id) (cfg.sha256 token) = .ok true ∧ libraryIsVisitor (files id) = .ok false := by
  simp only [isHouseholdMember, isMember]
  cases holdsMemberHash (files id) (cfg.sha256 token) <;> cases libraryIsVisitor (files id) <;>
    simp [and_assoc]

theorem withCurrentHouseholdMember_iff {cfg : Config} {files : Files} {id claimed token : String} :
    withCurrentHouseholdMember cfg files id (some (claimed, token)) = true ↔
      claimed = id ∧ isHouseholdMember cfg files (some (id, token)) = true := by
  rw [isHouseholdMember_iff]
  simp only [withCurrentHouseholdMember]
  by_cases hc : claimed = id <;> by_cases hv : validHexId id = true <;> by_cases ht : tokenShape token = true <;>
    simp only [hc, hv, ht, ne_eq, not_true_eq_false, not_false_eq_true, or_self, or_false, or_true,
      if_true, if_false, false_and, true_and, and_false, Bool.false_eq_true]
  rcases holdsMemberHash (files id) (cfg.sha256 token) with e | b
  · simp
  · cases b <;> cases libraryIsVisitor (files id) <;> simp

/-- What a marked database answers. -/
theorem libraryIsVisitor_of_marked {f : LibFiles} {db : Db} (hdb : f.db = some db) (htoken : db.token.isSome)
    (hmark : db.visitor.isSome) : libraryIsVisitor f = .ok true := by
  obtain ⟨token, ht⟩ := Option.isSome_iff_exists.mp htoken
  simp [libraryIsVisitor, credentials, existingLibrary, hdb, ht, hmark]

end DenEdge
