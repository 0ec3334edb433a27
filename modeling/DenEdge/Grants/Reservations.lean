import DenEdge.Grants.Reserve

/-!
# A reservation answered yes stays the guest's

`Good` says of the files that no two records claim one library and that every reservation answered 204 is found
through its pointer. It holds at every operation of reserving, and after every sweep, in the runs that are
`Found`.
-/

namespace DenEdge.Grants.Reserve

open Storage

variable {granted : List Granted} {files : Files} {may : May Name File}

/-! ## The files as they are read -/

def recordOf (files : Files) (gid : String) : Option Record :=
  match Assoc.get files (.grant gid) with
  | some (.record r) => some r
  | _ => none

def pointerOf (files : Files) (id : String) : Option String :=
  match Assoc.get files (.lib id) with
  | some (.gid gid) => some gid
  | _ => none

variable {gid : String} {r : Record}

theorem get_of_recordOf (h : recordOf files gid = some r) : Assoc.get files (.grant gid) = some (.record r) := by
  unfold recordOf at h
  split at h
  · cases h
    assumption
  · cases h

variable {id : String}

theorem get_of_pointerOf (h : pointerOf files id = some gid) :
    Assoc.get files (.lib id) = some (.gid gid) := by
  unfold pointerOf at h
  split at h
  · cases h
    assumption
  · cases h

/-- A grant's record claims a library. -/
def Claims (files : Files) (gid id : String) : Prop :=
  ∃ r, recordOf files gid = some r ∧ ∃ l, r.library = some l ∧ l.id = id

section

variable (files : Files)

theorem recordOf_set_grant (gid gid' : String) (r : Record) :
    recordOf (Assoc.set files (.grant gid) (.record r)) gid' =
      if gid' = gid then some r else recordOf files gid' := by
  unfold recordOf
  simp only [Assoc.get_set, Name.grant.injEq]
  split_ifs <;> rfl

theorem recordOf_erase_grant (gid gid' : String) :
    recordOf (Assoc.erase files (.grant gid)) gid' = if gid' = gid then none else recordOf files gid' := by
  unfold recordOf
  simp only [Assoc.get_erase, Name.grant.injEq]
  split_ifs <;> rfl

@[simp] theorem recordOf_set_lib (id gid : String) (f : File) :
    recordOf (Assoc.set files (.lib id) f) gid = recordOf files gid := by
  unfold recordOf
  rw [Assoc.get_set, if_neg (by simp)]

@[simp] theorem recordOf_erase_lib (id gid : String) :
    recordOf (Assoc.erase files (.lib id)) gid = recordOf files gid := by
  unfold recordOf
  rw [Assoc.get_erase, if_neg (by simp)]

@[simp] theorem pointerOf_set_grant (gid id : String) (f : File) :
    pointerOf (Assoc.set files (.grant gid) f) id = pointerOf files id := by
  unfold pointerOf
  rw [Assoc.get_set, if_neg (by simp)]

@[simp] theorem pointerOf_erase_grant (gid id : String) :
    pointerOf (Assoc.erase files (.grant gid)) id = pointerOf files id := by
  unfold pointerOf
  rw [Assoc.get_erase, if_neg (by simp)]

theorem pointerOf_set_lib (id id' gid : String) :
    pointerOf (Assoc.set files (.lib id) (.gid gid)) id' =
      if id' = id then some gid else pointerOf files id' := by
  unfold pointerOf
  simp only [Assoc.get_set, Name.lib.injEq]
  split_ifs <;> rfl

theorem pointerOf_erase_lib (id id' : String) :
    pointerOf (Assoc.erase files (.lib id)) id' = if id' = id then none else pointerOf files id' := by
  unfold pointerOf
  simp only [Assoc.get_erase, Name.lib.injEq]
  split_ifs <;> rfl

end

/-! ## The invariant -/

structure Good (granted : List Granted) (files : Files) : Prop where
  grants : ∀ gid f, Assoc.get files (.grant gid) = some f → ∃ r, f = .record r ∧ r.gid = gid
  libs : ∀ id f, Assoc.get files (.lib id) = some f → ∃ gid, f = .gid gid
  valid : ∀ gid id, Claims files gid id → validGid gid = true
  /-- No two grants claim one library. -/
  apart : ∀ gid gid' id, Claims files gid id → Claims files gid' id → gid = gid'
  /-- What was answered yes is in the record, and the pointer leads there. -/
  held : ∀ g ∈ granted, validHexId g.id = true ∧ pointerOf files g.id = some g.gid ∧
    ∃ r, recordOf files g.gid = some r ∧ r.library = some ⟨g.id, g.tokenHash⟩

theorem good_init : Good [] [] where
  grants gid f h := by cases h
  libs id f h := by cases h
  valid gid id h := by
    obtain ⟨r, hr, -⟩ := h
    cases hr
  apart gid gid' id h := by
    obtain ⟨r, hr, -⟩ := h
    cases hr
  held g h := by cases h

variable {tokenHash : String} {now : ℕ} {fates : Fates}
variable {g : Granted} {Q : Except Failure (Option Record) → Files → Prop} {l : ReservedLibrary} {s : State}

section

variable (h : Good granted files)
include h

theorem Good.claims (hg : g ∈ granted) : Claims files g.gid g.id := by
  obtain ⟨-, -, r, hr, hlibrary⟩ := h.held g hg
  exact ⟨r, hr, _, hlibrary, rfl⟩

theorem Good.fewer {granted' : List Granted} (hsub : ∀ g ∈ granted', g ∈ granted) :
    Good granted' files := ⟨h.grants, h.libs, h.valid, h.apart, fun g hg => h.held g (hsub g hg)⟩

theorem Good.gid_of_record (hr : recordOf files gid = some r) : r.gid = gid := by
  obtain ⟨r', hr', hgid⟩ := h.grants gid _ (get_of_recordOf hr)
  cases hr'
  exact hgid

omit h in
theorem claims_set_grant (h : Claims (Assoc.set files (.grant r.gid) (.record r)) gid id) :
    (gid = r.gid ∧ ∃ l, r.library = some l ∧ l.id = id) ∨ (gid ≠ r.gid ∧ Claims files gid id) := by
  obtain ⟨r', hr', hclaim⟩ := h
  rw [recordOf_set_grant] at hr'
  split_ifs at hr' with hgid
  · cases hr'
    exact .inl ⟨hgid, hclaim⟩
  · exact .inr ⟨hgid, r', hr', hclaim⟩

/-- A record is saved: what it claims nobody else does, and what was granted to it is what it claims. -/
theorem Good.write (hvalid : r.library ≠ none → validGid r.gid = true)
    (hapart : ∀ gid id, gid ≠ r.gid → Claims files gid id → ∀ l, r.library = some l → l.id ≠ id)
    (hheld : ∀ g ∈ granted, g.gid = r.gid → r.library = some ⟨g.id, g.tokenHash⟩) :
    Good granted (Assoc.set files (.grant r.gid) (.record r)) where
  grants gid f hf := by
    rcases Assoc.get_of_set hf with ⟨hgid, rfl⟩ | ⟨-, hf⟩
    · cases hgid
      exact ⟨r, rfl, rfl⟩
    · exact h.grants gid f hf
  libs id f hf := by
    rw [Assoc.get_set] at hf
    exact h.libs id f hf
  valid gid id hclaims := by
    rcases claims_set_grant hclaims with ⟨rfl, l, hl, -⟩ | ⟨-, hold⟩
    · exact hvalid (by simp [hl])
    · exact h.valid gid id hold
  apart gid gid' id hclaims hclaims' := by
    rcases claims_set_grant hclaims with ⟨rfl, l, hl, hid⟩ | ⟨hne, hold⟩
    · rcases claims_set_grant hclaims' with ⟨rfl, -⟩ | ⟨hne', hold'⟩
      · rfl
      · exact absurd hid (hapart gid' id hne' hold' l hl)
    · rcases claims_set_grant hclaims' with ⟨rfl, l, hl, hid⟩ | ⟨-, hold'⟩
      · exact absurd hid (hapart gid id hne hold l hl)
      · exact h.apart gid gid' id hold hold'
  held g hg := by
    obtain ⟨hid, hpointer, r', hr', hlibrary⟩ := h.held g hg
    rw [pointerOf_set_grant, recordOf_set_grant]
    refine ⟨hid, hpointer, ?_⟩
    split_ifs with hgid
    · exact ⟨r, rfl, hheld g hg hgid⟩
    · exact ⟨r', hr', hlibrary⟩

/-- A record is saved with the reservation it had. -/
theorem Good.rewrite (hlibrary : r.library = (recordOf files r.gid).bind (·.library)) :
    Good granted (Assoc.set files (.grant r.gid) (.record r)) := by
  have hclaims : ∀ l, r.library = some l → Claims files r.gid l.id := by
    intro l hl
    cases hold : recordOf files r.gid with
    | none => simp [hold, hl] at hlibrary
    | some r' =>
      refine ⟨r', hold, l, ?_, rfl⟩
      rw [hold, hl] at hlibrary
      exact hlibrary.symm
  refine h.write ?_ ?_ ?_
  · intro hne
    obtain ⟨l, hl⟩ := Option.ne_none_iff_exists'.mp hne
    exact h.valid r.gid l.id (hclaims l hl)
  · intro gid id hne hother l hl hid
    exact hne (h.apart gid r.gid id hother (hid ▸ hclaims l hl))
  · intro g hg hgid
    obtain ⟨-, -, r', hr', hlibrary'⟩ := h.held g hg
    rw [hlibrary, ← hgid, hr']
    exact hlibrary'

/-- The pointer of a library is led to the grant that claims it, and what it claims is granted. -/
theorem Good.point (hr : recordOf files gid = some r)
    (hlibrary : r.library = some ⟨id, tokenHash⟩) (hid : validHexId id = true) :
    Good (⟨gid, id, tokenHash⟩ :: granted) (Assoc.set files (.lib id) (.gid gid)) where
  grants gid' f hf := by
    rw [Assoc.get_set] at hf
    exact h.grants gid' f hf
  libs id' f hf := by
    rcases Assoc.get_of_set hf with ⟨-, rfl⟩ | ⟨-, hf⟩
    · exact ⟨gid, rfl⟩
    · exact h.libs id' f hf
  valid gid' id' hclaims := h.valid gid' id' (by simpa [Claims] using hclaims)
  apart gid₁ gid₂ id' h₁ h₂ := h.apart gid₁ gid₂ id' (by simpa [Claims] using h₁) (by simpa [Claims] using h₂)
  held g hg := by
    rw [pointerOf_set_lib, recordOf_set_lib]
    rcases List.mem_cons.mp hg with rfl | hg
    · rw [if_pos rfl]
      exact ⟨hid, rfl, r, hr, hlibrary⟩
    · obtain ⟨hid', hpointer, hrecord⟩ := h.held g hg
      refine ⟨hid', ?_, hrecord⟩
      split_ifs with heq
      · -- whoever was granted the library claims it, as this grant does
        have hclaims := h.claims hg
        rw [heq] at hclaims
        rw [h.apart gid g.gid id ⟨r, hr, _, hlibrary, rfl⟩ hclaims]
      · exact hpointer

/-- The record of a grant goes, and the grant with it. -/
theorem Good.reap (gid : String) :
    Good (granted.filter (·.gid ≠ gid)) (Assoc.erase files (.grant gid)) := by
  have hold : ∀ {gid' id}, Claims (Assoc.erase files (.grant gid)) gid' id → Claims files gid' id := by
    rintro gid' id ⟨r, hr, hclaim⟩
    rw [recordOf_erase_grant] at hr
    split_ifs at hr
    exact ⟨r, hr, hclaim⟩
  refine ⟨?_, ?_, fun gid' id hc => h.valid gid' id (hold hc), fun gid₁ gid₂ id h₁ h₂ =>
    h.apart gid₁ gid₂ id (hold h₁) (hold h₂), ?_⟩
  · intro gid' f hf
    exact h.grants gid' f (Assoc.get_of_erase hf)
  · intro id f hf
    rw [Assoc.get_erase] at hf
    exact h.libs id f hf
  · intro g hg
    obtain ⟨hg, hne⟩ := List.mem_filter.mp hg
    rw [pointerOf_erase_grant, recordOf_erase_grant, if_neg (by simpa using hne)]
    exact h.held g hg

/-- The pointer of a library that is granted to nobody goes. -/
theorem Good.unpoint (hnone : ∀ g ∈ granted, g.id ≠ id) :
    Good granted (Assoc.erase files (.lib id)) where
  grants gid f hf := by
    rw [Assoc.get_erase] at hf
    exact h.grants gid f hf
  libs id' f hf := by
    exact h.libs id' f (Assoc.get_of_erase hf)
  valid gid id' hclaims := h.valid gid id' (by simpa [Claims] using hclaims)
  apart gid₁ gid₂ id' h₁ h₂ := h.apart gid₁ gid₂ id' (by simpa [Claims] using h₁) (by simpa [Claims] using h₂)
  held g hg := by
    rw [pointerOf_erase_lib, recordOf_erase_lib, if_neg (hnone g hg)]
    exact h.held g hg

/-! ## Reserving keeps it -/

variable {I : Files → Prop}

theorem load_keeps (hI : I files)
    (hfailed : ∀ e, Q (.error e) files) (hloaded : Q (.ok (recordOf files gid)) files) :
    (load gid).Keeps (Ends may) anyCall I Q files := by
  unfold load
  refine keeps_get trivial hI (fun _ => ?_) fun _ e => hfailed e
  unfold recordOf at hloaded
  cases hfile : Assoc.get files (.grant gid) with
  | none =>
    rw [hfile] at hloaded
    exact hloaded
  | some f =>
    obtain ⟨r, rfl, -⟩ := h.grants gid f hfile
    rw [hfile] at hloaded
    exact hloaded

omit h in
theorem save_keeps (hI : I files) {Q : Except Failure Unit → Files → Prop} (hfailed : ∀ e, Q (.error e) files)
    (hsaved : I (Assoc.set files (.grant r.gid) (.record r)))
    (hQ : ∀ a, Q a (Assoc.set files (.grant r.gid) (.record r))) :
    (save r).Keeps (Ends may) anyCall I Q files := by
  unfold save
  refine keeps_put trivial hI (fun _ => ⟨hsaved, ?_⟩) fun _ e => hfailed e
  exact keeps_sync trivial hsaved (fun _ => hQ _) fun _ e => hQ _

/-- Whom the pointer of a library leads to, where that grant claims it. -/
def claimantOf (files : Files) (id : String) : Option Record :=
  ((pointerOf files id).filter (validGid ·)).bind fun gid =>
    (recordOf files gid).filter fun r => r.library.any (·.id = id)

theorem claimant_keeps (hI : I files)
    (hfailed : ∀ e, Q (.error e) files)
    (hfound : Q (.ok (claimantOf files id)) files) : (claimant id).Keeps (Ends may) anyCall I Q files := by
  unfold claimant
  refine keeps_get trivial hI (fun _ => ?_) fun _ e => hfailed e
  unfold claimantOf pointerOf at hfound
  cases hfile : Assoc.get files (.lib id) with
  | none =>
    rw [hfile] at hfound
    exact hfound
  | some f =>
    obtain ⟨gid, rfl⟩ := h.libs id f hfile
    rw [hfile] at hfound
    simp only
    by_cases hgid : validGid gid = true
    · simp only [hgid, Option.filter_some, Option.bind_some, if_true] at hfound
      rw [if_neg (by simp [hgid])]
      exact Program.keeps_bind (load_keeps h hI (fun e => hfailed e) hfound)
    · simp only [hgid, Option.filter_some, Bool.false_eq_true, if_false, Option.bind_none] at hfound
      rw [if_pos (by simp [hgid])]
      exact hfound

/-- What is granted once a reservation is answered. -/
def afterReply (granted : List Granted) (g : Granted) (reply : Reply) : List Granted :=
  if reply = .noContent then g :: granted else granted

omit h in
theorem afterReply_internal (g : Granted) (e : Failure) : afterReply granted g (internal e) = granted := by
  cases e <;> rfl

theorem point_keeps (hr : recordOf files gid = some r)
    (hlibrary : r.library = some ⟨id, tokenHash⟩) (hid : validHexId id = true) :
    (point gid id).Keeps (Ends may) anyCall (Good granted)
      (fun reply f => Good (afterReply granted ⟨gid, id, tokenHash⟩ reply) f) files := by
  have hpointed := h.point hr hlibrary hid
  have hrest : Good granted (Assoc.set files (.lib id) (.gid gid)) :=
    hpointed.fewer fun g hg => List.mem_cons_of_mem _ hg
  unfold point
  refine keeps_put trivial h (fun _ => ⟨hrest, ?_⟩) fun _ e => ?_
  · refine keeps_sync trivial hrest (fun _ => hpointed) fun _ e => ?_
    simpa only [Program.Keeps, afterReply_internal] using hrest
  · simpa only [Program.Keeps, afterReply_internal] using h

/-- Every other claim on a library is found through its pointer. -/
def Sees (files : Files) (gid id : String) : Prop :=
  ∀ gid', gid' ≠ gid → Claims files gid' id → pointerOf files id = some gid'

theorem claimantOf_of_claims (hclaims : Claims files gid id)
    (hpointer : pointerOf files id = some gid) : ∃ r, claimantOf files id = some r ∧ r.gid = gid := by
  have hvalid := h.valid gid id hclaims
  obtain ⟨r, hr, l, hl, hid⟩ := hclaims
  refine ⟨r, ?_, h.gid_of_record hr⟩
  rw [claimantOf, hpointer, Option.filter_some, if_pos hvalid, Option.bind_some, hr, Option.filter_some,
    if_pos (by simp [hl, hid])]

theorem claim_keeps (hr : recordOf files r.gid = some r)
    (hgid : validGid r.gid = true) (hnone : r.library = none) (hid : validHexId id = true)
    (hsees : Sees files r.gid id) : (claim r id tokenHash).Keeps (Ends may) anyCall (Good granted)
      (fun reply f => Good (afterReply granted ⟨r.gid, id, tokenHash⟩ reply) f) files := by
  unfold claim
  have hinternal : ∀ e f, Good granted f → Good (afterReply granted ⟨r.gid, id, tokenHash⟩ (internal e)) f := by
    intro e f hf
    rw [afterReply_internal]
    exact hf
  refine Program.keeps_bind (claimant_keeps h h (fun e => hinternal e _ h) ?_)
  simp only
  split_ifs with hother
  · exact h
  -- nobody else claims the library: who does is found, and refused
  have hfree : ∀ gid, gid ≠ r.gid → ¬ Claims files gid id := by
    intro gid hne hclaims
    obtain ⟨r', hr', hgid'⟩ := claimantOf_of_claims h hclaims (hsees gid hne hclaims)
    rw [hr'] at hother
    simp [hgid', hne] at hother
  set r' : Record := { r with library := some ⟨id, tokenHash⟩ } with hr'
  have hsaved : Good granted (Assoc.set files (.grant r'.gid) (.record r')) := by
    refine h.write (fun _ => hgid) ?_ ?_
    · intro gid id' hne hclaims l hl hid'
      have hlid : l.id = id := by
        rw [hr'] at hl
        simp only [Option.some.injEq] at hl
        rw [← hl]
      rw [← hid', hlid] at hclaims
      exact hfree gid hne hclaims
    · -- a grant with no reservation was granted none
      intro g hg heq
      obtain ⟨-, -, r'', hr'', hlibrary⟩ := h.held g hg
      rw [heq] at hr''
      have hrr : recordOf files r'.gid = some r := hr
      rw [hrr] at hr''
      cases hr''
      rw [hnone] at hlibrary
      cases hlibrary
  refine Program.keeps_bind (save_keeps h (fun e => hinternal e _ h) hsaved fun a => ?_)
  cases a with
  | error e => exact hinternal e _ hsaved
  | ok u =>
    refine point_keeps hsaved (r := r') ?_ rfl hid
    rw [recordOf_set_grant, if_pos rfl]

theorem reserveLibrary_keeps (may : May Name File) (limited : Bool) (auth : Auth) (id tokenHash : Option String)
    (now : ℕ)
    (hsees : ∀ gid ∈ auth.toOption, ∀ i ∈ id, (recordOf files gid).bind (·.library) = none → Sees files gid i) :
    (reserveLibrary limited auth id tokenHash now).Keeps (Ends may) anyCall (Good granted)
      (fun reply f =>
        Good (if reply = .noContent then (named auth id tokenHash).toList ++ granted else granted) f)
      files := by
  have herror : ∀ status code, Good (if Reply.error status code = .noContent then
      (named auth id tokenHash).toList ++ granted else granted) files := fun _ _ => h
  unfold reserveLibrary
  split_ifs
  · exact h
  cases auth with
  | error =>
    simp only [Program.Keeps]
    split_ifs
    · exact h
    · exact h
  | ok gid =>
    cases hid : id.filter (validHexId ·) with
    | none => cases tokenHash <;> exact herror 400 "bad_request"
    | some i =>
      cases tokenHash with
      | none => exact herror 400 "bad_request"
      | some t =>
        obtain ⟨rfl, hvalid⟩ := Option.filter_eq_some_iff.mp hid
        refine Program.keeps_bind (load_keeps h h (fun e => ?_) ?_)
        · cases e <;> exact h
        cases hr : recordOf files gid with
        | none => exact herror 404 "not_found"
        | some r =>
          have hrgid := h.gid_of_record hr
          simp only
          by_cases hlive : ¬ (r.isLive now && r.redeemedAt.isSome) = true
          · rw [if_pos hlive]
            exact herror 404 "not_found"
          rw [if_neg hlive]
          cases hlibrary : r.library with
          | some l =>
            by_cases hl : l = ⟨i, t⟩
            · subst hl
              simp only [if_true]
              exact point_keeps h hr hlibrary hvalid
            · simp only [if_neg hl]
              exact herror 403 "new_libraries_closed"
          | none =>
            have hsee : Sees files gid i := hsees gid rfl i rfl (by rw [hr]; exact hlibrary)
            rw [← hrgid] at hr hsee
            have hgid : validGid r.gid = true := by
              rw [hrgid]
              exact gid.2
            refine (claim_keeps h hr hgid hlibrary hvalid hsee).mono fun reply f hf => ?_
            rw [hrgid] at hf
            exact hf

theorem rewrite_keeps (r : Record) :
    Preserves may (Good granted) (rewrite r) files := by
  unfold rewrite
  refine Program.keeps_bind (load_keeps h h (fun e => h) ?_)
  have hsaved := h.rewrite (r := { r with library := (recordOf files r.gid).bind (·.library) }) rfl
  exact Program.keeps_bind (save_keeps h (fun e => h) hsaved fun _ => hsaved)

/-! ## The sweep of one record -/

/-- The operations after the read do not stop between the pointer and the record. -/
def Whole (fates : Fates) : Prop :=
  fates.getD 1 .ok ≠ .dies true ∧
    (fates.getD 1 .ok = .ok → fates.getD 2 .ok = .ok ∨ fates.getD 2 .ok = .dies true)

instance (fates : Fates) : Decidable (Whole fates) := by
  unfold Whole
  infer_instance

omit h in
/-- A reap that is not stopped half way takes the record, or leaves the pointer. -/
theorem reap_run (hr : Assoc.get files (.grant gid) = some (.record r))
    (hreap : r.sweep now = .reap) (hlibrary : r.library = some l) (hwhole : Whole fates) :
    (Storage.run (scripted fates) (sweepEntry gid now) files).1 = files ∨
    (Storage.run (scripted fates) (sweepEntry gid now) files).1 = Assoc.erase files (.grant gid) ∨
    (Storage.run (scripted fates) (sweepEntry gid now) files).1 =
      Assoc.erase (Assoc.erase files (.lib l.id)) (.grant gid) := by
  obtain ⟨hnot, hboth⟩ := hwhole
  have hfate : ∀ n (c : Op Name File), scripted fates n c = fates.getD n .ok := fun _ _ => rfl
  unfold Storage.run sweepEntry load
  simp only [Program.bind, Program.run, hfate]
  -- the read, then the pointer, then the record
  cases h₀ : fates.getD 0 .ok with
  | err e => exact .inl rfl
  | dies took => cases took <;> exact .inl rfl
  | ok =>
    simp only [Storage.act, found, effect, hr, Program.bind, hreap, hlibrary, Program.run, hfate, Nat.zero_add]
    cases h₁ : fates.getD 1 .ok with
    | ok =>
      simp only [reapRecord, Program.run, hfate, Nat.reduceAdd]
      rcases hboth h₁ with h₂ | h₂
      · rw [h₂]
        exact .inr (.inr rfl)
      · rw [h₂]
        exact .inr (.inr rfl)
    | err e =>
      simp only [reapRecord, Program.run, hfate, Nat.reduceAdd]
      cases h₂ : fates.getD 2 .ok with
      | ok => exact .inr (.inl rfl)
      | err e => exact .inl rfl
      | dies took =>
        cases took
        · exact .inl rfl
        · exact .inr (.inl rfl)
    | dies took =>
      cases took with
      | false => exact .inl rfl
      | true => exact absurd h₁ hnot

/-- What is granted of the records that are there. -/
def Stays (granted : List Granted) (f : Files) : Prop := Good (unreaped f granted) f

theorem Good.stays : Stays granted files := h.fewer fun _ hg => List.mem_of_mem_filter hg

omit h in
/-- Where a grant's record is gone, nothing granted to it is counted. -/
theorem stays_of_reap {f : Files} (h : Good (granted.filter (·.gid ≠ gid)) f)
    (hnone : Assoc.get f (.grant gid) = none) : Stays granted f := by
  refine h.fewer fun g hg => ?_
  obtain ⟨hg, hsome⟩ := List.mem_filter.mp hg
  refine List.mem_filter.mpr ⟨hg, decide_eq_true fun heq => ?_⟩
  rw [heq, hnone] at hsome
  cases hsome

theorem stays_reaped (gid : String) : Stays granted (Assoc.erase files (.grant gid)) :=
  stays_of_reap (h.reap gid) (by rw [Assoc.get_erase, if_pos rfl])

/-- The reservation goes with its grant: nobody else was granted the library. -/
theorem stays_unreserved (hr : recordOf files gid = some r)
    (hlibrary : r.library = some l) :
    Stays granted (Assoc.erase (Assoc.erase files (.lib l.id)) (.grant gid)) := by
  have hcomm : Assoc.erase (Assoc.erase files (.lib l.id)) (.grant gid) =
      Assoc.erase (Assoc.erase files (.grant gid)) (.lib l.id) := List.filter_comm ..
  have hunpointed : Good (granted.filter (·.gid ≠ gid))
      (Assoc.erase (Assoc.erase files (.grant gid)) (.lib l.id)) := by
    refine (h.reap gid).unpoint fun g hg heq => ?_
    obtain ⟨hg, hne⟩ := List.mem_filter.mp hg
    have hclaims := h.claims hg
    rw [heq] at hclaims
    have hsame := h.apart g.gid gid l.id hclaims ⟨r, hr, l, hlibrary, rfl⟩
    simp [hsame] at hne
  rw [← hcomm] at hunpointed
  exact stays_of_reap hunpointed (by rw [Assoc.get_erase, if_pos rfl])

theorem sweepEntry_keeps (gid : String) (now : ℕ)
    (hkept : ∀ r, recordOf files gid = some r → r.sweep now = .reap → r.library = none) :
    Preserves may (Stays granted) (sweepEntry gid now) files := by
  unfold sweepEntry
  refine Program.keeps_bind (load_keeps h h.stays (fun e => h.stays) ?_)
  cases hr : recordOf files gid with
  | none => exact h.stays
  | some r =>
    simp only
    cases hsweep : r.sweep now with
    | reap =>
      simp only [hkept r hr hsweep, reapRecord]
      exact keeps_delete trivial h.stays (fun _ => ⟨stays_reaped h gid, stays_reaped h gid⟩) fun _ e => h.stays
    | keep r' write =>
      cases write with
      | false => exact h.stays
      | true =>
        obtain ⟨hlibrary, hgid⟩ := Record.sweep_library hsweep
        have hrgid := h.gid_of_record hr
        have hsame : r'.library = (recordOf files r'.gid).bind (·.library) := by
          rw [hgid, hrgid, hr, hlibrary]
          rfl
        have hsaved := (h.rewrite hsame).stays
        exact Program.keeps_bind (save_keeps h.stays (fun e => h.stays) hsaved fun _ => hsaved)

theorem sweepEntry_stays
    (hwhole : ∀ r ∈ recordOf files gid, r.sweep now = .reap → r.library ≠ none → Whole fates) :
    Stays granted (Storage.run (scripted fates) (sweepEntry gid now) files).1 := by
  by_cases hreserved : ∃ r, recordOf files gid = some r ∧ r.sweep now = .reap ∧ r.library ≠ none
  · obtain ⟨r, hr, hreap, hne⟩ := hreserved
    obtain ⟨l, hlibrary⟩ := Option.ne_none_iff_exists'.mp hne
    rcases reap_run (get_of_recordOf hr) hreap hlibrary (hwhole r hr hreap hne) with heq | heq | heq
    · rw [heq]
      exact h.stays
    · rw [heq]
      exact stays_reaped h gid
    · rw [heq]
      exact stays_unreserved h hr hlibrary
  · refine run_keeps fates h.stays (sweepEntry_keeps h gid now fun r hr hreap => ?_)
    by_contra hne
    exact hreserved ⟨r, hr, hreap, hne⟩

/-! ## Runs -/

end

def File.record? : File → Option Record
  | .record r => some r
  | .gid _ => none

/-- Where a grant that has no reservation asks for a library, every other claim on it is found through its
pointer; and no reap stops between the pointer and the record. -/
def Found (s : State) : Event → Prop
  | .reserve _ auth id _ _ _ => ∀ gid ∈ auth.toOption, ∀ i ∈ id, (recordOf s.files gid).bind (·.library) = none →
      ∀ p ∈ s.files, ∀ r ∈ p.2.record?, r.gid ≠ gid → r.library.map (·.id) = some i →
        pointerOf s.files i = some r.gid
  | .sweepEntry gid now fates => ∀ r ∈ recordOf s.files gid, r.sweep now = .reap → r.library ≠ none → Whole fates
  | .rewrite _ _ => True

instance (s : State) (e : Event) : Decidable (Found s e) := by
  cases e <;> unfold Found <;> infer_instance

theorem mem_of_recordOf (hr : recordOf files gid = some r) :
    ∃ p ∈ files, p.2.record? = some r := ⟨_, Assoc.mem_of_get (get_of_recordOf hr), rfl⟩

theorem Found.sees (h : Good s.granted s.files) {limited : Bool} {auth : Auth} {id tokenHash : Option String}
    (hfound : Found s (.reserve limited auth id tokenHash now fates)) :
    ∀ gid ∈ auth.toOption, ∀ i ∈ id, (recordOf s.files gid).bind (·.library) = none → Sees s.files gid i := by
  intro gid hgid i hi hnone gid' hne hclaims
  obtain ⟨r, hr, l, hl, hid⟩ := hclaims
  obtain ⟨p, hp, hrecord⟩ := mem_of_recordOf hr
  have hrgid := h.gid_of_record hr
  rw [← hrgid]
  refine hfound gid hgid i hi hnone p hp r hrecord ?_ ?_
  · rw [hrgid]
    exact hne
  · rw [hl, ← hid]
    rfl

theorem step_good {e : Event} (h : Good s.granted s.files) (hfound : Found s e) :
    Good (step s e).granted (step s e).files := by
  cases e with
  | reserve limited auth id tokenHash now fates =>
    have hkeeps := reserveLibrary_keeps h May.any limited auth id tokenHash now (hfound.sees h)
    simp only [step]
    cases hrun : Storage.run (scripted fates) (reserveLibrary limited auth id tokenHash now) s.files with
    | mk files reply =>
      cases reply with
      | none => exact (run_dies (within_any _) hkeeps h hrun).stays
      | some reply =>
        have hended := run_ends (within_any _) hkeeps hrun
        cases reply with
        | noContent => exact hended.stays
        | error => exact hended.stays
  | sweepEntry => exact sweepEntry_stays h hfound
  | rewrite r fates => exact (run_keeps fates h (rewrite_keeps h r)).stays

/-- Where no file operation fails, a reservation that is held starts its library. -/
theorem reservedFor_answer (h : Good granted files) (hg : g ∈ granted) :
    (Storage.run (failing []) (reservedFor g.id g.tokenHash) files).2 = some (.ok true) := by
  obtain ⟨hid, hpointer, r, hr, hlibrary⟩ := h.held g hg
  have hgid := h.valid g.gid g.id (h.claims hg)
  have hlib := get_of_pointerOf hpointer
  have hgrant := get_of_recordOf hr
  simp only [Storage.run, reservedFor, claimant, load, hid, not_true_eq_false, if_false, Program.bind,
    Program.run, Storage.act, failing, Assoc.get_nil, found, effect, hlib, hgid, hgrant]
  simp [hlibrary]

/-- **A reservation answered yes stays the guest's.** In every run of reservations, sweeps and other routes, with
failures and deaths at any file operation, in which every claim is found where another grant asks for the library
and no reap stops half way: a reservation answered 204 to a grant that is not reaped starts its library, and no
two such grants were answered 204 for one library. -/
theorem reservations_stay (es : List Event) (hmeets : Run.Meets step Found init es) :
    let s := Run.exec step init es
    (∀ g ∈ s.granted,
      (Storage.run (failing []) (reservedFor g.id g.tokenHash) s.files).2 = some (.ok true)) ∧
    (∀ g ∈ s.granted, ∀ g' ∈ s.granted, g.id = g'.id → g.gid = g'.gid) := by
  have hgood : Good (Run.exec step init es).granted (Run.exec step init es).files :=
    Run.exec_inv (I := fun s => Good s.granted s.files) (fun s e h hfound => step_good h hfound) good_init hmeets
  refine ⟨fun g hg => reservedFor_answer hgood hg, ?_⟩
  intro g hg g' hg' heq
  have hclaims := hgood.claims hg
  rw [heq] at hclaims
  exact hgood.apart g.gid g'.gid g'.id hclaims (hgood.claims hg')

/-! ## Samples -/

def sampleId : String := "00112233445566778899aabbccddeeff"

def sampleRecord (gid : String) : Record :=
  ⟨gid, "host", "code", ["device"], some 1, 1000, none, some 1000, some 1, none, none, false, none⟩

def sampleAsk (gid : { gid : String // validGid gid = true }) (tokenHash : String) (fates : Fates) : Event :=
  .reserve false (.ok gid) (some sampleId) (some tokenHash) 10 fates

def guest : { gid : String // validGid gid = true } := ⟨"0000000a", by decide⟩

def other : { gid : String // validGid gid = true } := ⟨"0000000b", by decide⟩

/-- Two grants, one of which reserves a library, retries after a failure, and keeps it from the other. -/
def sampleRun : List Event :=
  [.rewrite (sampleRecord guest) [], .rewrite (sampleRecord other) [],
   sampleAsk guest "t" [.ok, .ok, .ok, .ok, .err .other],
    sampleAsk guest "t" [], sampleAsk other "u" [], .sweepEntry guest 2000 []]

theorem reservations_stay_sample :
    Run.Meets step Found init sampleRun ∧
    (Run.exec step init sampleRun).granted = [⟨guest, sampleId, "t"⟩] ∧
    (Storage.run (failing []) (reservedFor sampleId "t") (Run.exec step init sampleRun).files).2 =
      some (.ok true) := by
  have hmeets : Run.Meets step Found init sampleRun := by decide +kernel
  have hgranted : (Run.exec step init sampleRun).granted = [⟨guest, sampleId, "t"⟩] := by decide +kernel
  refine ⟨hmeets, hgranted, (reservations_stay sampleRun hmeets).1 ⟨guest, sampleId, "t"⟩ ?_⟩
  exact List.mem_singleton.mpr rfl

/-- **Two grants are told yes.** The first grant's pointer cannot be written, so the second is told yes; the first
retries and is told yes too, and the second can no longer start the library. -/
theorem unpointed_claim_is_taken :
    let s := Run.exec step init [.rewrite (sampleRecord guest) [], .rewrite (sampleRecord other) [],
      sampleAsk guest "t" [.ok, .ok, .ok, .ok, .err .other], sampleAsk other "u" [], sampleAsk guest "t" []]
    s.granted = [⟨guest, sampleId, "t"⟩, ⟨other, sampleId, "u"⟩] ∧
    (Storage.run (failing []) (reservedFor sampleId "u") s.files).2 = some (.ok false) := by
  decide +kernel

end DenEdge.Grants.Reserve
