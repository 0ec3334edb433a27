import DenEdge.Base.Assoc
import DenEdge.Base.Digest
import DenEdge.Base.Run
import DenEdge.Grants.Record

/-!
# The life of guest grants

Hosts make, change and end grants; guests redeem codes and tickets; a sweep ends what has ended; and the sessions
of a grant that ended are ended one call at a time. Every read-modify-write of a record is one step here: it is
made under one lock. What is read without it (an authentication, the index of a sweep or of a retirement) is a
step of its own, and what was read is used later. A request reads the time before it waits for the lock, so its
time is any time up to the clock's. A request that fails leaves everything as it is, and is not a step.

Gids, codes and tickets are drawn at random: one that was drawn before is not drawn again.
-/

namespace DenEdge.Grants

def CODE_DEFAULT_MS : ℕ := 14 * DAY_MS

def CODE_MAX_MS : ℕ := 90 * DAY_MS

def MAX_LIVE : ℕ := 10

def MAX_RECORDS : ℕ := 100

def MAX_TOTAL : ℕ := 200

def TICKET_MS : ℕ := 10 * 60 * 1000

def MAX_TICKETS : ℕ := 3

/-! ## Bodies -/

/-- A field of a body: a number, or a value that is none. -/
inductive Field where
  | absent
  | null
  | number (n : ℕ)
  | other

def Field.isSet : Field → Bool
  | .absent | .null => false
  | .number _ | .other => true

/-- A create or update body. -/
structure Body where
  /-- The name, the addons and the installs are valid, and the grant is a whole one with them. -/
  whole : Bool
  codeExpiresAt : Field
  accessDays : Field
  accessUntil : Field
  devices : Field

/-- When a code may lapse: ahead, and not too far. -/
def codeExpiry (now at_ : ℕ) : Option ℕ := if at_ ≤ now ∨ now + CODE_MAX_MS < at_ then none else some at_

namespace Record

variable (r : Record)

def applyCodeExpiresAt (now : ℕ) : Field → Option Record
  | .absent => some r
  | .number n => (codeExpiry now n).map fun at_ => { r with codeExpiresAt := at_ }
  | .null | .other => none

def applyAccessDays : Field → Option Record
  | .absent => some r
  | .null => some { r with accessDays := none }
  | .number n => if 1 ≤ n ∧ n ≤ 365 then some { r with accessUntil := none, accessDays := some n } else none
  | .other => none

def applyAccessUntil (now : ℕ) (creating : Bool) : Field → Option Record
  | .absent => some r
  | .null => some { r with accessUntil := none }
  | .number n => if !creating || now < n then some { r with accessDays := none, accessUntil := some n } else none
  | .other => none

def applyDevices : Field → Option Record
  | .absent => some r
  | .null => some { r with maxDevices := none }
  | .number n => if 1 ≤ n ∧ n ≤ 5 then some { r with maxDevices := some n } else none
  | .other => none

/-- A create or update body, applied; none for a field that is invalid, or a result that is not a whole grant. -/
def apply (body : Body) (now : ℕ) (creating : Bool) : Option Record :=
  if !body.whole || (body.accessDays.isSet && body.accessUntil.isSet) then none
  else do
    let r ← r.applyCodeExpiresAt now body.codeExpiresAt
    let r ← r.applyAccessDays body.accessDays
    let r ← r.applyAccessUntil now creating body.accessUntil
    r.applyDevices body.devices

/-- The record of a new grant, before its body. -/
def new (host : String) (now : ℕ) : Record :=
  ⟨"", host, "", [], some 1, now + CODE_DEFAULT_MS, none, none, none, none, none, false, none⟩

/-- An extension can bring an expired grant back to life; its next end is another one to kill for. -/
def revive (now : ℕ) : Record :=
  if r.isLive now then { r with remuxKillFor := none, remuxKillAcked := false } else r

/-- A fresh code. Where every device slot is taken the limit goes up by one, up to five. -/
def recode (codeHash : String) (codeExpiresAt now : ℕ) : Option Record :=
  if r.endAt.any (· ≤ now) then none
  else if r.devicesFull then
    if r.maxDevices.any (5 ≤ ·) then none
    else some { r with
      maxDevices := r.maxDevices.map (· + 1), codeHash := codeHash, codeExpiresAt := codeExpiresAt }
  else some { r with codeHash := codeHash, codeExpiresAt := codeExpiresAt }

/-- A device redeems the code. A device that already did is let back in; a new one needs a code that has not
lapsed, and a slot. -/
def redeem (codeHash device : String) (now : ℕ) : Option Record :=
  if r.codeHash ≠ codeHash ∨ !r.isLive now then none
  else if device ∈ r.devices then some r
  else if r.codeExpiresAt ≤ now ∨ r.devicesFull then none
  else some { r with devices := r.devices ++ [device], redeemedAt := some (r.redeemedAt.getD now) }

/-- A device presents a ticket of the grant. -/
def present (device : String) (now : ℕ) : Option Record :=
  if !r.isLive now ∨ r.redeemedAt.isNone then none
  else if device ∈ r.devices then some r
  else if r.devicesFull then none
  else some { r with devices := r.devices ++ [device] }

/-- The grant is ended: it stops answering, and its devices' secrets are dropped. -/
def endGrant (now : ℕ) : Record :=
  let ended := r.revokedAt.getD now
  if r.remuxKillFor ≠ some ended then
    { r with revokedAt := some ended, remuxKillFor := some ended, remuxKillAcked := false, devices := [] }
  else { r with revokedAt := some ended, devices := [] }

end Record

/-- Until when a kill is worth sending for an end: no session outlives it. -/
def killUntil (at_ : ℕ) : ℕ := min (at_ + REMUX_SESSION_MAX_MS) (2 ^ 64 - 1)

/-! ## The state -/

structure Ticket where
  gid : String
  expiresAt : ℕ

structure IndexEntry where
  gid : String
  host : String

/-- A retirement that holds a library's slot: where its `revoke_host` is, and the gids it has revoked. -/
inductive Retiring where
  | began
  | revoking (now : ℕ) (todo revoked : List String)
  | revoked (gids : List String)
  deriving DecidableEq

inductive Sweeping where
  | scanning (todo ended gone : List String)
  | ending (ended : List String)

structure Sweep where
  now : ℕ
  phase : Sweeping
  /-- What the sweep looked at: ended grants with the end, where no kill for it was acknowledged and one is still
  worth sending. -/
  due : List (String × ℕ)

/-- How a call to end a grant's sessions ended. -/
inductive How where
  /-- The kill was sent, and acknowledged or not. -/
  | sent (at_ : ℕ) (acknowledged : Bool)
  /-- No den-remux is configured: there is nothing to be told. -/
  | unconfigured
  | gone
  | acked
  | late (event : ℕ)

inductive Ending where
  | forget
  | connections
  | look
  | kill (event : Option ℕ)
  /-- The kill was sent at a time, and den-remux has not answered. -/
  | asked (event : Option ℕ) (at_ : ℕ)
  /-- The kill is done with, and the record is to say so. -/
  | ack (event : ℕ) (how : How)
  | done (how : How)

/-- A call of `end_sessions`, by a sweep or by a request that revoked the grant. -/
structure End where
  gid : String
  sweep : Option ℕ
  phase : Ending

def Ending.isDone : Ending → Bool
  | .done _ => true
  | _ => false

/-- What `end_sessions` did to a grant: it ended its assistant connections, or sent the kill of its remux
sessions. -/
structure Act where
  gid : String
  kill : Bool
  /-- Was the grant live at that moment? -/
  live : Bool
  deriving DecidableEq

/-- The files of grants, the tasks that run, and what was done. -/
structure State where
  clock : ℕ
  records : List (String × Record)
  index : List IndexEntry
  /-- By the hash of the ticket. -/
  tickets : List (String × Ticket)
  /-- Grants that were authenticated for a ticket, or to be left. -/
  asking : List String
  leaving : List String
  retiring : List (String × Retiring)
  sweeps : List Sweep
  ends : List End
  /-- What was drawn so far. -/
  gids : List String
  codes : List String
  minted : List String
  /-- What was done to grants, and the kills den-remux acknowledged, with the time each was sent. -/
  acts : List Act
  acks : List (String × ℕ)

def init : State := ⟨0, [], [], [], [], [], [], [], [], [], [], [], [], []⟩

namespace State

def load (s : State) (gid : String) : Option Record := Assoc.get s.records gid

def save (s : State) (r : Record) : State := { s with records := Assoc.set s.records r.gid r }

/-- The library's slot is not held by a retirement. -/
def free (s : State) (host : String) : Bool := (Assoc.get s.retiring host).isNone

/-- A grant that is this host's and has not been revoked. -/
def owned (s : State) (host gid : String) : Option Record :=
  (s.load gid).filter fun r => r.host = host && r.revokedAt.isNone

/-- What lives in memory of a grant that stopped being live. -/
def forget (s : State) (gid : String) : State := { s with tickets := s.tickets.filter (·.2.gid ≠ gid) }

def endSessions (s : State) (gid : String) (sweep : Option ℕ) : State :=
  { s with ends := s.ends ++ [⟨gid, sweep, .forget⟩] }

end State

/-! ## The host's side -/

section Machine

variable (sha : Digest)

def create (s : State) (host : String) (body : Body) (gid code : String) (now : ℕ) : Option State :=
  ((Record.new host now).apply body now true).bind fun r =>
    let mine := s.index.filter (·.host = host)
    let live := mine.countP fun e => (s.load e.gid).any (·.isLive now)
    if MAX_LIVE ≤ live ∨ MAX_RECORDS ≤ mine.length ∨ MAX_TOTAL ≤ s.index.length then none
    else if gid ∈ s.gids ∨ code ∈ s.codes ∨ gid ∈ s.index.map IndexEntry.gid then none
    else
      some { s.save { r with gid := gid, codeHash := sha.of code } with
        index := s.index ++ [⟨gid, host⟩], gids := s.gids ++ [gid], codes := s.codes ++ [code] }

def update (s : State) (host gid : String) (body : Body) (now : ℕ) : Option State :=
  (s.owned host gid).bind fun r => (r.apply body now false).map fun r => s.save (r.revive now)

def newCode (s : State) (host gid : String) (codeExpiresAt : Field) (code : String) (now : ℕ) : Option State :=
  let expires :=
    match codeExpiresAt with
    | .absent => some (now + CODE_DEFAULT_MS)
    | .number n => codeExpiry now n
    | .null | .other => none
  expires.bind fun at_ => (s.owned host gid).bind fun r =>
    if code ∈ s.codes then none
    else (r.recode (sha.of code) at_ now).map fun r => { s.save r with codes := s.codes ++ [code] }

def revoke (s : State) (host gid : String) (now : ℕ) : Option State :=
  ((s.load gid).filter (·.host = host)).map fun r => (s.save (r.endGrant now)).endSessions gid none

/-! ## The guest's side -/

inductive Auth where
  | notFound
  | expired (at_ : ℕ)
  | live
  deriving DecidableEq

/-- Is the secret one of the grant's devices', and the grant live? -/
def authenticate (s : State) (gid secret : String) (now : ℕ) : Auth :=
  match s.load gid with
  | none => .notFound
  | some r =>
    if sha.of secret ∉ r.devices ∨ r.revokedAt.isSome then .notFound
    else
      match r.expiresAt.filter (· ≤ now) with
      | some at_ => .expired at_
      | none => .live

def redeem (s : State) (gid code device : String) (now : ℕ) : Option State :=
  (s.load gid).bind fun r => (r.redeem (sha.of code) device now).map s.save

/-- A ticket for a grant: every lapsed one goes, and the grant's oldest where it has too many. -/
def mintTicket (s : State) (gid ticket : String) (rank : String → ℕ) (now : ℕ) : State :=
  let kept := s.tickets.filter fun t => now < t.2.expiresAt
  -- the order of equal times is the hash map's
  let mine := (kept.filter (·.2.gid = gid)).insertionSort fun a b =>
    a.2.expiresAt < b.2.expiresAt ∨ (a.2.expiresAt = b.2.expiresAt ∧ rank a.1 ≤ rank b.1)
  let oldest := (mine.take (mine.length + 1 - MAX_TICKETS)).map Prod.fst
  { s with
    tickets := Assoc.set (kept.filter (·.1 ∉ oldest)) (sha.of ticket) ⟨gid, now + TICKET_MS⟩
    minted := s.minted ++ [ticket] }

/-- A new device presents a ticket; it is spent once the device is in the record. -/
def redeemTicket (s : State) (ticket device : String) (now : ℕ) : Option State :=
  ((Assoc.get s.tickets (sha.of ticket)).filter (now < ·.expiresAt)).bind fun t =>
    (s.load t.gid).bind fun r => (r.present device now).map fun r =>
      { s.save r with tickets := Assoc.erase s.tickets (sha.of ticket) }

/-- The grant is revoked by the guest, who was authenticated before. -/
def leave (s : State) (gid : String) (now : ℕ) : Option State :=
  (s.load gid).map fun r => (s.save (r.endGrant now)).endSessions gid none

/-! ## A library that goes away -/

/-- One entry of the index that `revoke_host` read. -/
def revokeEntry (s : State) (host gid : String) (now : ℕ) (todo revoked : List String) : State :=
  match s.load gid with
  | none => { s with retiring := Assoc.set s.retiring host (.revoking now todo revoked) }
  | some r =>
    if r.host ≠ host ∨ r.revokedAt.isSome then
      { s with retiring := Assoc.set s.retiring host (.revoking now todo revoked) }
    else
      { s.save (r.endGrant now) with
        retiring := Assoc.set s.retiring host (.revoking now todo (revoked ++ [gid])) }

/-! ## Sweeps -/

variable (r : Record)

/-- The end of a grant for which no kill was acknowledged, and a kill is still worth sending. -/
def Record.due (now : ℕ) : Option ℕ :=
  (r.endedAt now).filter fun at_ => !(r.remuxKillFor = some at_ && r.remuxKillAcked) && now < killUntil at_

/-- One entry of the index that a sweep read. -/
def sweepEntry (s : State) (i : ℕ) (now : ℕ) (due : List (String × ℕ)) (gid : String)
    (todo ended gone : List String) : State :=
  match s.load gid with
  | none => { s with sweeps := s.sweeps.set i ⟨now, .scanning todo ended (gone ++ [gid]), due⟩ }
  | some r =>
    let due := due ++ ((r.due now).map fun at_ => (gid, at_)).toList
    match r.sweep now with
    | .reap =>
      { s.forget gid with
        records := Assoc.erase s.records gid
        sweeps := s.sweeps.set i ⟨now, .scanning todo ended (gone ++ [gid]), due⟩ }
    | .keep r' write isOver =>
      { (if write then s.save r' else s) with
        sweeps := s.sweeps.set i ⟨now, .scanning todo (if isOver then ended ++ [gid] else ended) gone, due⟩ }

/-! ## Ending sessions -/

def State.isLive (s : State) (gid : String) : Bool := (s.load gid).any (·.isLive s.clock)

def State.setEnd (s : State) (j : ℕ) (e : End) : State := { s with ends := s.ends.set j e }

variable (configured : Bool)

/-- What the record says of the kill: whose end it is for, or why none is sent. -/
def lookEnd (s : State) (gid : String) (ok : Bool) : Ending :=
  if !ok then .kill none
  else
    match s.load gid with
    | none => .done .gone
    | some r =>
      if r.remuxKillAcked then .done .acked
      else
        match r.remuxKillFor with
        | some at_ => if s.clock < killUntil at_ then .kill (some at_) else .done (.late at_)
        | none => .kill none

/-- The kill is done with: where it was for an end, the record is to say so. -/
def told (event : Option ℕ) (how : How) : Ending :=
  match event with
  | some at_ => .ack at_ how
  | none => .done how

/-- The record says that the kill was acknowledged, if it is still about that end. -/
def ackEnd (s : State) (gid : String) (event : ℕ) : State :=
  match s.load gid with
  | some r => if r.remuxKillFor = some event then s.save { r with remuxKillAcked := true } else s
  | none => s

/-- The next step of a call; `ok` where the storage works, or den-remux acknowledges. -/
def stepEnd (s : State) (j : ℕ) (e : End) (ok : Bool) : State :=
  match e.phase with
  | .forget => (s.forget e.gid).setEnd j { e with phase := .connections }
  | .connections =>
    { s.setEnd j { e with phase := .look } with acts := s.acts ++ [⟨e.gid, false, s.isLive e.gid⟩] }
  | .look => s.setEnd j { e with phase := lookEnd s e.gid ok }
  | .kill event =>
    if configured then
      { s.setEnd j { e with phase := .asked event s.clock } with acts := s.acts ++
        [⟨e.gid, true, s.isLive e.gid⟩] }
    else s.setEnd j { e with phase := told event .unconfigured }
  | .asked event at_ =>
    if ok then
      { s.setEnd j { e with phase := told event (.sent at_ true) } with acks := s.acks ++ [(e.gid, at_)] }
    else s.setEnd j { e with phase := .done (.sent at_ false) }
  | .ack event how =>
    (if ok then ackEnd s e.gid event else s).setEnd j { e with phase := .done how }
  | .done _ => s

/-! ## Steps -/

inductive Event where
  | tick (ms : ℕ)
  | create (host : String) (body : Body) (gid code : String) (now : ℕ)
  | update (host gid : String) (body : Body) (now : ℕ)
  | newCode (host gid : String) (codeExpiresAt : Field) (code : String) (now : ℕ)
  | revoke (host gid : String) (now : ℕ)
  | redeem (gid code device : String) (now : ℕ)
  | askTicket (gid secret : String) (now : ℕ)
  | mintTicket (i : ℕ) (ticket : String) (rank : String → ℕ) (now : ℕ)
  | redeemTicket (ticket device : String) (now : ℕ)
  | askLeave (gid secret : String) (now : ℕ)
  | leave (i now : ℕ)
  /-- A retirement takes its library's slot, which no request of the host's then has. -/
  | retire (host : String)
  | revokeHost (host : String) (now : ℕ)
  | revokeEntry (host : String) (ok : Bool)
  /-- The slot is let go; what was revoked loses its sessions, unless the retirement failed on the way. -/
  | release (host : String) (ok : Bool)
  | sweep (now : ℕ)
  | sweepEntry (i : ℕ) (ok : Bool)
  | sweepIndex (i : ℕ) (ok : Bool)
  | sweepNext (i : ℕ)
  | stepEnd (j : ℕ) (ok : Bool)
  | restart

/-- The time a request read. -/
def Event.now : Event → ℕ
  | .create _ _ _ _ now | .update _ _ _ now | .newCode _ _ _ _ now | .revoke _ _ now | .redeem _ _ _ now
  | .askTicket _ _ now | .mintTicket _ _ _ now | .redeemTicket _ _ now | .askLeave _ _ now | .leave _ now
  | .revokeHost _ now | .sweep now => now
  | .tick _ | .retire _ | .revokeEntry .. | .release .. | .sweepEntry .. | .sweepIndex .. |
    .sweepNext _ | .stepEnd ..
  | .restart => 0

/-- What an event does, once the time it carries is one that was. -/
def act (s : State) : Event → State
  | .tick ms => { s with clock := s.clock + ms }
  | .create host body gid code now => if s.free host then (create sha s host body gid code now).getD s else s
  | .update host gid body now => if s.free host then (update s host gid body now).getD s else s
  | .newCode host gid codeExpiresAt code now =>
    if s.free host then (newCode sha s host gid codeExpiresAt code now).getD s else s
  | .revoke host gid now => if s.free host then (revoke s host gid now).getD s else s
  | .redeem gid code device now => (redeem sha s gid code device now).getD s
  | .askTicket gid secret now =>
    if authenticate sha s gid secret now = .live then { s with asking := s.asking ++ [gid] } else s
  | .mintTicket i ticket rank now =>
    match s.asking[i]? with
    | some gid =>
      if ticket ∈ s.minted then s else mintTicket sha { s with asking := s.asking.eraseIdx i } gid ticket rank now
    | none => s
  | .redeemTicket ticket device now => (redeemTicket sha s ticket device now).getD s
  | .askLeave gid secret now =>
    if authenticate sha s gid secret now = .notFound then s else { s with leaving := s.leaving ++ [gid] }
  | .leave i now =>
    match s.leaving[i]? with
    | some gid =>
      let s := { s with leaving := s.leaving.eraseIdx i }
      (leave s gid now).getD s
    | none => s
  | .retire host => if s.free host then { s with retiring := Assoc.set s.retiring host .began } else s
  | .revokeHost host now =>
    match Assoc.get s.retiring host with
    | some .began =>
      { s with
        retiring := Assoc.set s.retiring host
          (.revoking now ((s.index.filter (·.host = host)).map IndexEntry.gid) []) }
    | _ => s
  | .revokeEntry host ok =>
    match Assoc.get s.retiring host with
    | some (.revoking now (gid :: todo) revoked) =>
      if ok then revokeEntry s host gid now todo revoked else { s with retiring := Assoc.erase s.retiring host }
    | some (.revoking _ [] revoked) => { s with retiring := Assoc.set s.retiring host (.revoked revoked) }
    | _ => s
  | .release host ok =>
    match Assoc.get s.retiring host with
    | some (.revoked gids) =>
      { s with
        retiring := Assoc.erase s.retiring host
        ends := s.ends ++ (if ok then gids.map fun gid => ⟨gid, none, .forget⟩ else []) }
    | some _ => { s with retiring := Assoc.erase s.retiring host }
    | none => s
  | .sweep now => { s with sweeps := s.sweeps ++ [⟨now, .scanning (s.index.map IndexEntry.gid) [] [], []⟩] }
  | .sweepEntry i ok =>
    match s.sweeps[i]? with
    | some ⟨now, .scanning (gid :: todo) ended gone, due⟩ =>
      if ok then sweepEntry s i now due gid todo ended gone
      else { s with sweeps := s.sweeps.set i ⟨now, .scanning todo ended gone, due⟩ }
    | _ => s
  | .sweepIndex i ok =>
    match s.sweeps[i]? with
    | some ⟨now, .scanning [] ended gone, due⟩ =>
      { s with
        index := if ok then s.index.filter (·.gid ∉ gone) else s.index
        sweeps := s.sweeps.set i ⟨now, .ending ended, due⟩ }
    | _ => s
  | .sweepNext i =>
    match s.sweeps[i]? with
    | some ⟨now, .ending (gid :: ended), due⟩ =>
      -- one call after the other
      if s.ends.all fun e => e.sweep ≠ some i || e.phase.isDone then
        { s.endSessions gid (some i) with sweeps := s.sweeps.set i ⟨now, .ending ended, due⟩ }
      else s
    | _ => s
  | .stepEnd j ok =>
    match s.ends[j]? with
    | some e => stepEnd configured s j e ok
    | none => s
  | .restart => { s with tickets := [], asking := [], leaving := [], retiring := [], sweeps := [], ends := [] }

def step (s : State) (e : Event) : State := if e.now ≤ s.clock then act sha configured s e else s

end Machine

end DenEdge.Grants
