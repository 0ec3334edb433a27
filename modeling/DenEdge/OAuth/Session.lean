import DenEdge.Base.Digest
import Mathlib.Data.List.Basic
import Mathlib.Tactic

/-!
# Assistant sessions

A session is an assistant's connection: whom it speaks for, the refresh secret that continues it, and where it may
write or read the grant key wrapped under that secret. `openSession` is what an exchanged code makes, `refresh`
what a presented refresh token does to the session it names; neither reads or writes a file.
-/

namespace DenEdge.OAuth

/-- A session unused this long ends. -/
def IDLE_MS : ℕ := 30 * 86400000

/-- How long after a refresh the secret it replaced is still taken, once. -/
def REFRESH_GRACE_MS : ℕ := 60000

/-- Replaced secrets remembered per session. -/
def RETIRED_KEPT : ℕ := 8

/-- Whom a connection speaks for: a member of a library, or a guest of a grant that a host shares. -/
inductive Who where
  | member (library memberHash : String)
  | guest (gid host : String)

/-- A connection as it is stored. -/
structure Session where
  sid : String
  clientId : String
  who : Who
  /-- The digests of the secret now valid and of the one it replaced. -/
  refreshHash : String
  previousHash : Option String
  rotatedAt : ℕ
  /-- Older replaced secrets: one of them presented ends the session. -/
  retired : List String
  usedAt : ℕ
  /-- The grant's id, and its key wrapped under the secret now valid and under the one it replaced. -/
  grant : Option String
  wrap : Option String
  previousWrap : Option String
  readOnly : Bool
  read : Bool

/-- How a grant key is wrapped under a refresh secret and a session's id, with a nonce, and taken out again. -/
structure Wrapping (Key : Type) where
  id : Key → String
  wrap : String → String → Key → ℕ → String
  unwrap : String → String → String → Option Key
  unwrap_wrap : ∀ secret sid key nonce, unwrap secret sid (wrap secret sid key nonce) = some key

variable {Key : Type} (sha : Digest) (W : Wrapping Key)

/-- What an approval allowed, until its code is exchanged. -/
structure Code (Key : Type) where
  clientId : String
  who : Who
  grant : Option Key
  write : Bool
  read : Bool

/-- A secret and a nonce, drawn at random. -/
structure Draw where
  secret : String
  nonce : ℕ

/-- The session an exchanged code opens. -/
def openSession (code : Code Key) (sid : String) (drawn : Draw) (now : ℕ) : Session where
  sid := sid
  clientId := code.clientId
  who := code.who
  refreshHash := sha.of drawn.secret
  previousHash := none
  rotatedAt := 0
  retired := []
  usedAt := now
  grant := code.grant.map W.id
  wrap := code.grant.map (W.wrap drawn.secret sid · drawn.nonce)
  previousWrap := none
  readOnly := code.grant.isSome && !code.write
  read := code.grant.isSome && code.read

/-! ## Refreshing -/

namespace Session

variable (s : Session) (secret : String) (now : ℕ)

def isCurrent : Bool := s.refreshHash = sha.of secret

def isPrevious : Bool := s.previousHash = some (sha.of secret)

/-- The secret the last refresh replaced, presented again within the grace: the client never got that answer. -/
def isRetry : Bool := !s.isCurrent sha secret && s.isPrevious sha secret && now < s.rotatedAt + REFRESH_GRACE_MS

/-- The wrap under the secret presented. -/
def consulted (retry : Bool) : Option String := if retry then s.previousWrap else s.wrap

/-- The grant key, where the session has a grant; nothing where it does not unwrap. -/
def unwrapGrant (retry : Bool) : Option (Option Key) :=
  match s.grant with
  | none => some none
  | some id => (((s.consulted retry).bind (W.unwrap secret s.sid)).filter (W.id · = id)).map some

end Session

/-- The newest of the retired. -/
def keepRetired {α : Type} (l : List α) : List α := l.drop (l.length - RETIRED_KEPT)

/-- The session once a secret was taken: the new secret's digest and wrap in place. -/
def Session.rotate (s : Session) (retry : Bool) (now : ℕ) (hash : String) (wrap : Option String) : Session :=
  if retry then
    -- what the lost answer carried is never valid, and the retry is spent
    { s with
      refreshHash := hash
      previousHash := none
      retired := keepRetired (s.retired ++ [s.refreshHash] ++ s.previousHash.toList)
      wrap := wrap
      previousWrap := none
      usedAt := now }
  else
    { s with
      refreshHash := hash
      previousHash := some s.refreshHash
      rotatedAt := now
      retired := keepRetired (s.retired ++ s.previousHash.toList)
      wrap := wrap
      previousWrap := s.wrap
      usedAt := now }

/-- Whether the member or the grant behind a session still stands; it may not be known. -/
inductive Standing where
  | stands
  | ended
  | unknown
  deriving DecidableEq

inductive Decision (Key : Type) where
  | refuse (why : String)
  /-- The session ends. -/
  | drop (why : String)
  | internal
  | rotate (s : Session) (key : Option Key)

/-- A refresh token's secret presented to its session, by a client that names itself. -/
def refresh (s : Session) (secret : String) (clientId : Option String) (now : ℕ) (standing : Standing)
    (drawn : Draw) : Decision Key :=
  if clientId ≠ some s.clientId then
    .refuse "client_id is required, and must be the client the token was issued to"
  else if ¬ (s.isCurrent sha secret || s.isRetry sha secret now) then
    -- two holders of one session: it ends for both
    if s.isPrevious sha secret || s.retired.contains (sha.of secret) then .drop "unknown refresh token"
    else .refuse "unknown refresh token"
  else if s.usedAt + IDLE_MS ≤ now then .drop "the connection has ended"
  else match standing with
  | .ended => .drop "the connection has ended"
  | .unknown => .internal
  | .stands =>
    match s.unwrapGrant W secret (s.isRetry sha secret now) with
    | none => .drop "the connection has ended"
    | some key =>
      .rotate (s.rotate (s.isRetry sha secret now) now (sha.of drawn.secret)
        (key.map (W.wrap drawn.secret s.sid · drawn.nonce))) key

end DenEdge.OAuth
