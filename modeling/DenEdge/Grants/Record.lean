import DenEdge.Store.Row

/-!
# The record of a guest grant

What den-edge keeps of a guest's grant, and what it reads off it: when its access ends, whether it is live, and
what a sweep does with it. The name, the addons and their installs, the usage and the creation time are left out:
nothing below reads them.
-/

namespace DenEdge.Grants

def DAY_MS : ℕ := 86400000

/-- How long an ended grant's record is kept. -/
def REAP_MS : ℕ := 30 * DAY_MS

/-- No den-remux session lives longer than this. -/
def REMUX_SESSION_MAX_MS : ℕ := 6 * 60 * 60 * 1000

/-- The one synced library a grant reserved. -/
structure ReservedLibrary where
  id : String
  tokenHash : String
  deriving DecidableEq

/-- A grant as it is stored. -/
structure Record where
  gid : String
  /-- The library that owns it. -/
  host : String
  codeHash : String
  /-- The hash of each redeemed device's secret. -/
  devices : List String
  /-- No limit where there is none. -/
  maxDevices : Option ℕ
  codeExpiresAt : ℕ
  accessDays : Option ℕ
  accessUntil : Option ℕ
  redeemedAt : Option ℕ
  revokedAt : Option ℕ
  /-- The end whose den-remux sessions must be killed, and whether den-remux acknowledged that. -/
  remuxKillFor : Option ℕ
  remuxKillAcked : Bool
  library : Option ReservedLibrary
  deriving DecidableEq

namespace Record

variable (r : Record)

/-- When access ends, if it is known: an absolute date, or the trial length counted from the first redeem. -/
def endAt : Option ℕ :=
  r.accessUntil.or (r.redeemedAt.bind fun redeemed => r.accessDays.map fun days => redeemed + days * DAY_MS)

/-- The instant the grant stops being usable by expiry. -/
def expiresAt : Option ℕ :=
  match r.redeemedAt with
  | some _ => r.endAt
  | none => some (r.endAt.elim r.codeExpiresAt (min · r.codeExpiresAt))

inductive Status where
  | revoked
  | expired
  | active
  | invited
  deriving DecidableEq

def status (now : ℕ) : Status :=
  if r.revokedAt.isSome then .revoked
  else if r.expiresAt.any (· ≤ now) then .expired
  else if r.redeemedAt.isSome then .active
  else .invited

def isLive (now : ℕ) : Bool := r.status now = .invited || r.status now = .active

/-- When a grant that is no longer live stopped being so. -/
def endedAt (now : ℕ) : Option ℕ := r.revokedAt.or (r.expiresAt.filter (· ≤ now))

def devicesFull : Bool := r.maxDevices.any (· ≤ r.devices.length)

/-- What a sweep does with a record: its file goes, or the record is kept, written again or not, its sessions to
be ended or not. -/
inductive Swept where
  | reap
  | keep (r : Record) (write ended : Bool)
  deriving DecidableEq

def sweep (now : ℕ) : Swept :=
  match r.endedAt now with
  | some ended =>
    if ended + REAP_MS ≤ now then .reap
    else
      let r' :=
        if r.remuxKillFor ≠ some ended then { r with remuxKillFor := some ended, remuxKillAcked := false } else r
      .keep r' (r.remuxKillFor ≠ some ended) (!r'.remuxKillAcked &&
        now < min (ended + REMUX_SESSION_MAX_MS) (2 ^ 64 - 1))
  | none =>
    .keep { r with remuxKillFor := none, remuxKillAcked := false }
      (r.remuxKillFor.isSome || r.remuxKillAcked) false

theorem isLive_iff {r : Record} {now : ℕ} : r.isLive now = true ↔ r.endedAt now = none := by
  unfold isLive status endedAt
  cases hrevoked : r.revokedAt with
  | some t => simp
  | none =>
    cases hexpires : r.expiresAt with
    | none => cases r.redeemedAt <;> simp
    | some t =>
      by_cases hle : t ≤ now
      · simp [hle]
      · have hlt : now < t := not_le.mp hle
        cases r.redeemedAt <;> simp [hle, hlt]

theorem sweep_library {r r' : Record} {now : ℕ} {write ended : Bool} (h : r.sweep now = .keep r' write ended) :
    r'.library = r.library ∧ r'.gid = r.gid := by
  unfold sweep at h
  cases hended : r.endedAt now with
  | none =>
    simp only [hended, Swept.keep.injEq] at h
    rw [← h.1]
    exact ⟨rfl, rfl⟩
  | some t =>
    simp only [hended] at h
    split_ifs at h with hreap hfor
    · cases h
      exact ⟨rfl, rfl⟩
    · cases h
      exact ⟨rfl, rfl⟩

end Record

/-- 8 lower-case hexadecimal digits. -/
def validGid (s : String) : Bool := s.length = 8 && s.toList.all fun c => c.isDigit || ('a' ≤ c && c ≤ 'f')

end DenEdge.Grants
