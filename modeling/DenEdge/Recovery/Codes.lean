import DenEdge.Recovery.Model

/-!
# Recovery codes open what they were made for

`create` looks at the locator's file only, so an entry that a failed create left behind is not seen: a retry lists
the locator twice and opens with the older text, and another library that takes the locator loses it when the
first one removes its entry. Where no create meets such an entry (`Unlisted`) the codes are as they should be,
over every run with failures and deaths anywhere: `codes_open`.
-/

namespace DenEdge.Recovery

open Storage

variable {live : List Code} {files : Files}

/-! ## The files as they are read -/

/-- What a library's file lists. -/
def listed (files : Files) (id : String) : List Entry :=
  match Assoc.get files (.lib id) with
  | some (.entries es) => es.entries
  | _ => []

/-- The library a locator's file names. -/
def owner (files : Files) (locator : String) : Option String :=
  match Assoc.get files (.loc locator) with
  | some (.owner id) => some id
  | _ => none

/-- The files once a library's entries are saved. -/
def saved (files : Files) (id : String) (l : List Entry) : Files :=
  if l = [] then Assoc.erase files (.lib id) else Assoc.set files (.lib id) (.entries ⟨VERSION, l⟩)

section

variable (files : Files)

theorem listed_saved (id id' : String) (l : List Entry) :
    listed (saved files id l) id' = if id' = id then l else listed files id' := by
  unfold saved listed
  by_cases hl : l = []
  · simp only [if_pos hl, Assoc.get_erase, Name.lib.injEq]
    split_ifs
    · exact hl.symm
    · rfl
  · simp only [if_neg hl, Assoc.get_set, Name.lib.injEq]
    split_ifs <;> rfl

theorem get_loc_saved (id locator : String) (l : List Entry) :
    Assoc.get (saved files id l) (.loc locator) = Assoc.get files (.loc locator) := by
  unfold saved
  split_ifs
  · rw [Assoc.get_erase, if_neg (by simp)]
  · rw [Assoc.get_set, if_neg (by simp)]

@[simp] theorem owner_saved (id locator : String) (l : List Entry) :
    owner (saved files id l) locator = owner files locator := by
  unfold owner
  rw [get_loc_saved]

@[simp] theorem listed_set_loc (locator id : String) (f : File) :
    listed (Assoc.set files (.loc locator) f) id = listed files id := by
  unfold listed
  rw [Assoc.get_set, if_neg (by simp)]

@[simp] theorem listed_erase_loc (locator id : String) :
    listed (Assoc.erase files (.loc locator)) id = listed files id := by
  unfold listed
  rw [Assoc.get_erase, if_neg (by simp)]

theorem owner_set_loc (locator locator' id : String) :
    owner (Assoc.set files (.loc locator) (.owner id)) locator' =
      if locator' = locator then some id else owner files locator' := by
  unfold owner
  simp only [Assoc.get_set, Name.loc.injEq]
  split_ifs <;> rfl

theorem owner_erase_loc (locator locator' : String) :
    owner (Assoc.erase files (.loc locator)) locator' =
      if locator' = locator then none else owner files locator' := by
  unfold owner
  simp only [Assoc.get_erase, Name.loc.injEq]
  split_ifs <;> rfl

end

/-! ## The invariant -/

/-- What the files are between two requests, and at every operation of one. -/
structure Good (live : List Code) (files : Files) : Prop where
  libs : ∀ id f, Assoc.get files (.lib id) = some f → ∃ l, f = .entries ⟨VERSION, l⟩
  locs : ∀ locator f, Assoc.get files (.loc locator) = some f → ∃ id, f = .owner id
  /-- A locator's file names a library that lists it. -/
  owned : ∀ locator id, owner files locator = some id → ∃ e ∈ listed files id, e.locator = locator
  nodup : ∀ id, ((listed files id).map Entry.locator).Nodup
  /-- No two libraries list one locator. -/
  apart : ∀ id id' e e', e ∈ listed files id → e' ∈ listed files id' → e.locator = e'.locator → id = id'
  /-- A code opens, with its own text. -/
  opens : ∀ c ∈ live, owner files c.locator = some c.library ∧
    ∃ e ∈ listed files c.library, e.locator = c.locator ∧ e.sealed = c.sealed
  valid : ∀ c ∈ live, validLocator c.locator = true

theorem good_init : Good [] [] where
  libs id f h := by cases h
  locs locator f h := by cases h
  owned locator id h := by cases h
  nodup id := List.nodup_nil
  apart id id' e e' h := by cases h
  opens c h := by cases h
  valid c h := by cases h

theorem Good.fewer {live' : List Code} (h : Good live files) (hsub : ∀ c ∈ live', c ∈ live) :
    Good live' files := { h with
  opens c hc := h.opens c (hsub c hc)
  valid c hc := h.valid c (hsub c hc) }

/-- No library lists the locator. -/
def NotListed (files : Files) (locator : String) : Prop := ∀ id e, e ∈ listed files id → e.locator ≠ locator

variable {id : String} {l : List Entry}

theorem map_count (locator : String) (now : ℕ) (l : List Entry) :
    (count locator now l).map Entry.locator = l.map Entry.locator := by
  induction l with
  | nil => rfl
  | cons e rest ih =>
    rw [count]
    split_ifs
    · rfl
    · rw [List.map_cons, List.map_cons, ih]

variable {locator : String}
variable {now : ℕ} {s : State}

/-- Counting an open changes no locator and no text. -/
theorem mem_count {e : Entry} (h : e ∈ l) :
    ∃ e' ∈ count locator now l, e'.locator = e.locator ∧ e'.sealed = e.sealed := by
  induction l with
  | nil => cases h
  | cons a rest ih =>
    rw [count]
    split_ifs
    · rcases List.mem_cons.mp h with rfl | h
      · exact ⟨_, List.mem_cons_self, rfl, rfl⟩
      · exact ⟨e, List.mem_cons_of_mem _ h, rfl, rfl⟩
    · rcases List.mem_cons.mp h with rfl | h
      · exact ⟨e, List.mem_cons_self, rfl, rfl⟩
      · obtain ⟨e', he', hsame⟩ := ih h
        exact ⟨e', List.mem_cons_of_mem _ he', hsame⟩

section

variable (h : Good live files)
include h

/-- A library's list is saved: each locator of it once, listed there before or nowhere; every locator file of the
library and every code of it still listed. -/
theorem Good.save (hnodup : (l.map Entry.locator).Nodup)
    (hnew : ∀ e ∈ l, (∃ e' ∈ listed files id, e'.locator = e.locator) ∨ NotListed files e.locator)
    (howned : ∀ locator, owner files locator = some id → ∃ e ∈ l, e.locator = locator)
    (hopens : ∀ c ∈ live, c.library = id → ∃ e ∈ l, e.locator = c.locator ∧ e.sealed = c.sealed) :
    Good live (saved files id l) where
  libs id' f hf := by
    unfold saved at hf
    split_ifs at hf with hl
    · exact h.libs id' f (Assoc.get_of_erase hf)
    · rcases Assoc.get_of_set hf with ⟨-, rfl⟩ | ⟨-, hf⟩
      · exact ⟨l, rfl⟩
      · exact h.libs id' f hf
  locs locator f hf := by
    rw [get_loc_saved] at hf
    exact h.locs locator f hf
  owned locator id' hid' := by
    rw [owner_saved] at hid'
    rw [listed_saved]
    split_ifs with hid
    · subst hid
      exact howned locator hid'
    · exact h.owned locator id' hid'
  nodup id' := by
    rw [listed_saved]
    split_ifs
    · exact hnodup
    · exact h.nodup id'
  apart id₁ id₂ e₁ e₂ h₁ h₂ heq := by
    rw [listed_saved] at h₁ h₂
    split_ifs at h₁ h₂ with hid₁ hid₂ hid₂
    · rw [hid₁, hid₂]
    · -- an entry of the new list that another library lists: it was listed here before
      rcases hnew e₁ h₁ with ⟨e', he', hlocator⟩ | hnone
      · rw [hid₁]
        exact h.apart id id₂ e' e₂ he' h₂ (hlocator.trans heq)
      · exact absurd heq.symm (hnone id₂ e₂ h₂)
    · rcases hnew e₂ h₂ with ⟨e', he', hlocator⟩ | hnone
      · rw [hid₂]
        exact h.apart id₁ id e₁ e' h₁ he' (heq.trans hlocator.symm)
      · exact absurd heq (hnone id₁ e₁ h₁)
    · exact h.apart id₁ id₂ e₁ e₂ h₁ h₂ heq
  opens c hc := by
    obtain ⟨hlibrary, hlisted⟩ := h.opens c hc
    rw [owner_saved, listed_saved]
    refine ⟨hlibrary, ?_⟩
    split_ifs with hid
    · exact hopens c hc hid
    · exact hlisted
  valid := h.valid

/-- Every entry of the library is still listed. -/
theorem Good.extend (hnodup : (l.map Entry.locator).Nodup)
    (hnew : ∀ e ∈ l, (∃ e' ∈ listed files id, e'.locator = e.locator) ∨ NotListed files e.locator)
    (hkept : ∀ e ∈ listed files id, ∃ e' ∈ l, e'.locator = e.locator ∧ e'.sealed = e.sealed) :
    Good live (saved files id l) := by
  refine h.save hnodup hnew (fun locator howner => ?_) fun c hc hlibrary => ?_
  · obtain ⟨e, he, rfl⟩ := h.owned locator id howner
    obtain ⟨e', he', hsame, -⟩ := hkept e he
    exact ⟨e', he', hsame⟩
  · obtain ⟨e, he, hlocator, hsealed⟩ := (h.opens c hc).2
    obtain ⟨e', he', hsame, htext⟩ := hkept e (hlibrary ▸ he)
    exact ⟨e', he', hsame.trans hlocator, htext.trans hsealed⟩

/-- A locator's file goes, with the codes of that locator. -/
theorem Good.disown (hgone : ∀ c ∈ live, c.locator ≠ locator) :
    Good live (Assoc.erase files (.loc locator)) where
  libs id f hf := by
    rw [Assoc.get_erase] at hf
    exact h.libs id f hf
  locs locator' f hf := by
    exact h.locs locator' f (Assoc.get_of_erase hf)
  owned locator' id hid := by
    rw [owner_erase_loc] at hid
    split_ifs at hid
    rw [listed_erase_loc]
    exact h.owned locator' id hid
  nodup := by simpa only [listed_erase_loc] using h.nodup
  apart := by simpa only [listed_erase_loc] using h.apart
  opens c hc := by
    rw [owner_erase_loc, if_neg (hgone c hc), listed_erase_loc]
    exact h.opens c hc
  valid := h.valid

/-- A locator's file is written for a library that lists it, where no code has the locator. -/
theorem Good.own (hlisted : ∃ e ∈ listed files id, e.locator = locator)
    (hfree : owner files locator = none) : Good live (Assoc.set files (.loc locator) (.owner id)) where
  libs id' f hf := by
    rw [Assoc.get_set] at hf
    exact h.libs id' f hf
  locs locator' f hf := by
    rcases Assoc.get_of_set hf with ⟨-, rfl⟩ | ⟨-, hf⟩
    · exact ⟨id, rfl⟩
    · exact h.locs locator' f hf
  owned locator' id' hid' := by
    rw [owner_set_loc] at hid'
    rw [listed_set_loc]
    split_ifs at hid' with hlocator
    · cases hid'
      rw [hlocator]
      exact hlisted
    · exact h.owned locator' id' hid'
  nodup := by simpa only [listed_set_loc] using h.nodup
  apart := by simpa only [listed_set_loc] using h.apart
  opens c hc := by
    have hne : c.locator ≠ locator := by
      intro heq
      have hlibrary := (h.opens c hc).1
      rw [heq, hfree] at hlibrary
      cases hlibrary
    rw [owner_set_loc, if_neg hne, listed_set_loc]
    exact h.opens c hc
  valid := h.valid

/-- A library without locator files goes, with its codes. -/
theorem Good.erase (hnone : ∀ locator, owner files locator ≠ some id) :
    Good live (Assoc.erase files (.lib id)) := by
  have hsaved : saved files id [] = Assoc.erase files (.lib id) := if_pos rfl
  rw [← hsaved]
  refine h.save List.nodup_nil (nofun) (fun locator hlocator => absurd hlocator (hnone locator)) ?_
  intro c hc hlibrary
  have howner := (h.opens c hc).1
  rw [hlibrary] at howner
  exact absurd howner (hnone c.locator)

theorem Good.get_loc (locator : String) :
    Assoc.get files (.loc locator) = (owner files locator).map .owner := by
  unfold owner
  cases hfile : Assoc.get files (.loc locator) with
  | none => rfl
  | some f =>
    obtain ⟨id, rfl⟩ := h.locs locator f hfile
    rfl

theorem Good.get_lib {e : Entry} (he : e ∈ listed files id) :
    Assoc.get files (.lib id) = some (.entries ⟨VERSION, listed files id⟩) := by
  unfold listed at he ⊢
  cases hfile : Assoc.get files (.lib id) with
  | none =>
    rw [hfile] at he
    cases he
  | some f =>
    obtain ⟨l, rfl⟩ := h.libs id f hfile
    rfl

/-! ## The routes keep it -/

variable {may : May Name File} {I : Files → Prop}

theorem load_keeps (hI : I files) {Q : Except Failure Entries → Files → Prop}
    (hfailed : ∀ e, Q (.error e) files) (hloaded : Q (.ok ⟨VERSION, listed files id⟩) files) :
    (load id).Keeps (Ends may) anyCall I Q files := by
  unfold load
  refine keeps_get trivial hI (fun _ => ?_) fun _ e => hfailed e
  unfold listed at hloaded
  cases hfile : Assoc.get files (.lib id) with
  | none =>
    rw [hfile] at hloaded
    exact hloaded
  | some f =>
    obtain ⟨l, rfl⟩ := h.libs id f hfile
    rw [hfile] at hloaded
    exact hloaded

theorem ownerOf_keeps (hI : I files)
    {Q : Except Failure (Option String) → Files → Prop} (hfailed : ∀ e, Q (.error e) files)
    (hfound : Q (.ok (owner files locator)) files) : (ownerOf locator).Keeps (Ends may) anyCall I Q files := by
  unfold ownerOf
  refine keeps_get trivial hI (fun _ => ?_) fun _ e => hfailed e
  rw [h.get_loc]
  cases howner : owner files locator with
  | none | some =>
    rw [howner] at hfound
    exact hfound

omit h in
theorem save_keeps (hI : I files) {Q : Except Failure Unit → Files → Prop} (hfailed : ∀ e, Q (.error e) files)
    (hsaved : I (saved files id l) ∧ Q (.ok ()) (saved files id l)) :
    (save id ⟨VERSION, l⟩).Keeps (Ends may) anyCall I Q files := by
  unfold save
  unfold saved at hsaved
  by_cases hl : l = []
  · rw [if_pos hl] at hsaved ⊢
    exact keeps_delete trivial hI (fun _ => hsaved) fun _ e => hfailed e
  · rw [if_neg hl] at hsaved ⊢
    exact keeps_put trivial hI (fun _ => hsaved) fun _ e => hfailed e

/-- No code is created where an operation fails. -/
theorem Good.internal {c : Code} (e : Failure) :
    Good (if (internal e).isCreated then c :: live else live) files := by
  cases e <;> exact h

theorem createEntry_keeps {sealed : String}
    (hvalid : validLocator locator = true) (hfree : owner files locator = none)
    (hunlisted : NotListed files locator) :
    (createEntry id locator sealed now ⟨VERSION, listed files id⟩).Keeps (Ends may) anyCall (Good live)
      (fun reply files' => Good (if reply.isCreated then ⟨id, locator, sealed⟩ :: live else live) files')
      files := by
  -- the library lists the locator once, after what it listed
  have hsaved : Good live (saved files id (listed files id ++ [⟨locator, sealed, now, 0, none⟩])) := by
    refine h.extend (List.nodup_map_snoc (h.nodup id) (hunlisted id)) ?_ ?_
    · exact List.forall_mem_snoc (fun e he => .inl ⟨e, he, rfl⟩) (.inr hunlisted)
    · exact fun e he => ⟨e, List.mem_append_left _ he, rfl, rfl⟩
  have hlisted : (⟨locator, sealed, now, 0, none⟩ : Entry) ∈
      listed (saved files id (listed files id ++ [⟨locator, sealed, now, 0, none⟩])) id := by
    rw [listed_saved, if_pos rfl]
    exact List.mem_concat_self
  have howned : Good live (Assoc.set (saved files id (listed files id ++ [⟨locator, sealed, now, 0, none⟩]))
      (.loc locator) (.owner id)) := hsaved.own ⟨_, hlisted, rfl⟩ (by rw [owner_saved]; exact hfree)
  unfold createEntry
  refine Program.keeps_bind (save_keeps h h.internal ⟨hsaved, ?_⟩)
  refine keeps_put trivial hsaved (fun _ => ⟨howned, ?_⟩) fun _ => hsaved.internal
  refine keeps_sync trivial howned (fun _ => ?_) fun _ => howned.internal
  refine { howned with
    opens := List.forall_mem_cons.mpr ⟨?_, howned.opens⟩
    valid := List.forall_mem_cons.mpr ⟨hvalid, h.valid⟩ }
  rw [owner_set_loc, if_pos rfl, listed_set_loc]
  exact ⟨rfl, _, hlisted, rfl, rfl⟩

theorem create_keeps (may : May Name File) (id : String) (member : Bool) {locator : Option String}
    (sealed : Option String) (now : ℕ) (hunlisted : ∀ l ∈ locator, owner files l = none → NotListed files l) :
    (create id member locator sealed now).Keeps (Ends may) anyCall (Good live)
      (fun reply files' => Good (if reply.isCreated then ⟨id, locator.getD "", sealed.getD ""⟩ :: live else live)
        files') files := by
  unfold create
  cases hlocator : locator.filter (validLocator ·) with
  | none => exact h
  | some l =>
    cases hsealed : sealed.filter (validSealed ·) with
    | none => exact h
    | some =>
      obtain ⟨rfl, hvalid⟩ := Option.filter_eq_some_iff.mp hlocator
      obtain ⟨rfl, -⟩ := Option.filter_eq_some_iff.mp hsealed
      by_cases hmember : ¬ member = true
      · simp only [if_pos hmember]
        exact h
      simp only [if_neg hmember]
      refine Program.keeps_bind (ownerOf_keeps h h h.internal ?_)
      cases hfree : owner files l with
      | some id' => exact h
      | none =>
        refine Program.keeps_bind (load_keeps h h h.internal ?_)
        by_cases hfull : MAX_PER_LIBRARY ≤ (listed files id).length
        · simp only [if_pos hfull]
          exact h
        · simp only [if_neg hfull]
          exact createEntry_keeps h hvalid hfree (hunlisted l rfl hfree)

theorem removeEntry_keeps
    (hlisted : ∃ e ∈ listed files id, e.locator = locator)
    (hgone : ∀ c ∈ live, c.locator = locator → c.library ≠ id)
    {I : Files → Prop} (hI : I files) (hgood : ∀ f, Good live f → I f) :
    Preserves may I (removeEntry id locator ⟨VERSION, (listed files id).filter (·.locator ≠ locator)⟩) files := by
  -- a code of the locator is of a library that lists it, which is this one
  have hcodes : ∀ c ∈ live, c.locator ≠ locator := by
    intro c hc heq
    obtain ⟨e, he, hlocator, -⟩ := (h.opens c hc).2
    obtain ⟨e', he', hlocator'⟩ := hlisted
    have hsame := h.apart c.library id e e' he he' (by rw [hlocator, heq, hlocator'])
    exact hgone c hc heq hsame
  have hdisowned : Good live (Assoc.erase files (.loc locator)) := h.disown hcodes
  have hsaved : Good live (saved (Assoc.erase files (.loc locator)) id
      ((listed files id).filter (·.locator ≠ locator))) := by
    refine hdisowned.save ?_ ?_ ?_ ?_
    · exact (h.nodup id).sublist (List.filter_sublist.map _)
    · intro e he
      rw [listed_erase_loc]
      exact .inl ⟨e, List.mem_of_mem_filter he, rfl⟩
    · intro locator' howner
      rw [owner_erase_loc] at howner
      split_ifs at howner with hne
      obtain ⟨e, he, rfl⟩ := h.owned locator' id howner
      exact ⟨e, List.mem_filter.mpr ⟨he, by simpa using hne⟩, rfl⟩
    · intro c hc hlibrary
      obtain ⟨e, he, hlocator, hsealed⟩ := (h.opens c hc).2
      rw [hlibrary] at he
      have hne : e.locator ≠ locator := by
        rw [hlocator]
        exact hcodes c hc
      exact ⟨e, List.mem_filter.mpr ⟨he, by simpa using hne⟩, hlocator, hsealed⟩
  unfold removeEntry
  refine keeps_delete trivial hI (fun _ => ⟨hgood _ hdisowned, ?_⟩) fun _ e => hI
  refine Program.keeps_bind (save_keeps (hgood _ hdisowned) (fun e => hgood _ hdisowned) ⟨hgood _ hsaved, ?_⟩)
  exact keeps_sync trivial (hgood _ hsaved) (fun _ => hgood _ hsaved) fun _ e => hgood _ hsaved

/-- The codes a library has left once it removes a locator. -/
def afterRemove (live : List Code) (id : String) (locator : Option String) : List Code :=
  live.filter fun c => !(c.library = id && some c.locator = locator)

theorem remove_keeps (id : String) (locator : Option String) :
    Preserves may (fun f => f = files ∨ Good (afterRemove live id locator) f) (remove id locator) files := by
  have hfewer : Good (afterRemove live id locator) files := h.fewer fun c hc => List.mem_of_mem_filter hc
  unfold remove
  cases hlocator : locator.filter (validLocator ·) with
  | none => exact .inl rfl
  | some l =>
    obtain ⟨rfl, -⟩ := Option.filter_eq_some_iff.mp hlocator
    refine Program.keeps_bind (load_keeps h (.inl rfl) (fun e => .inl rfl) ?_)
    by_cases hsame : ((listed files id).filter (·.locator ≠ l)).length = (listed files id).length
    · simp only [if_pos hsame]
      exact .inl rfl
    simp only [if_neg hsame]
    refine removeEntry_keeps hfewer ?_ ?_ (.inl rfl) fun f hf => .inr hf
    · by_contra hnone
      refine hsame (congrArg List.length (List.filter_eq_self.mpr fun e he => ?_))
      simpa using fun heq => hnone ⟨e, he, heq⟩
    · intro c hc heq hid
      have hkept := (List.mem_filter.mp hc).2
      simp [hid, heq] at hkept

theorem Good.count (id locator : String) (now : ℕ) :
    Good live (saved files id (count locator now (listed files id))) := by
  refine h.extend ?_ ?_ fun e he => mem_count he
  · rw [map_count]
    exact h.nodup id
  · intro e he
    have hmem : e.locator ∈ (listed files id).map Entry.locator := by
      rw [← map_count locator now]
      exact List.mem_map_of_mem he
    obtain ⟨e', he', hlocator⟩ := List.mem_map.mp hmem
    exact .inl ⟨e', he', hlocator⟩

theorem openCode_keeps (locator : Option String) (now : ℕ) :
    Preserves may (Good live) (openCode locator now) files := by
  unfold openCode
  cases hlocator : locator.filter (validLocator ·) with
  | none => exact h
  | some l =>
    refine Program.keeps_bind (ownerOf_keeps h h (fun e => h) ?_)
    cases owner files l with
    | none => exact h
    | some id =>
      refine Program.keeps_bind (load_keeps h h (fun e => h) ?_)
      cases hfind : (listed files id).find? (·.locator = l) with
      | none =>
        simp only [hfind]
        exact h
      | some =>
        simp only [hfind, countOpen]
        have hcounted := h.count id l now
        refine Program.keeps_bind (save_keeps h (fun e => h) ⟨hcounted, ?_⟩)
        exact keeps_sync trivial hcounted (fun _ => hcounted) fun _ e => hcounted

/-- The locator files of a list of entries go one by one. -/
theorem deleteLocators_keeps (hcodes : ∀ e ∈ l, ∀ c ∈ live, c.locator ≠ e.locator)
    {I : Files → Prop} (hgood : ∀ f, Good live f → I f) :
    (deleteLocators l).Keeps (Ends may) anyCall I (fun r f => Good live f ∧ (r = .ok () → ∀ id locator,
      owner f locator = some id → owner files locator = some id ∧ ∀ e ∈ l, e.locator ≠ locator)) files := by
  induction l generalizing files with
  | nil => exact ⟨h, fun _ id locator howner => ⟨howner, nofun⟩⟩
  | cons e rest ih =>
    have hnext : Good live (Assoc.erase files (.loc e.locator)) := h.disown (hcodes e List.mem_cons_self)
    rw [deleteLocators]
    refine keeps_delete trivial (hgood _ h) (fun _ => ⟨hgood _ hnext, ?_⟩) fun _ err => ⟨h, nofun⟩
    refine (ih hnext fun e' he' => hcodes e' (List.mem_cons_of_mem _ he')).mono fun r f hf => ⟨hf.1, ?_⟩
    intro hr id locator howner
    obtain ⟨hbefore, hrest⟩ := hf.2 hr id locator howner
    rw [owner_erase_loc] at hbefore
    split_ifs at hbefore with hne
    exact ⟨hbefore, List.forall_mem_cons.mpr ⟨fun heq => hne heq.symm, hrest⟩⟩

/-- The codes that are left once a library is deleted. -/
def afterDelete (live : List Code) (id : String) : List Code := live.filter fun c => !(c.library = id)

theorem deleteLibrary_keeps (id : String) :
    Preserves may (fun f => f = files ∨ Good (afterDelete live id) f) (deleteLibrary id) files := by
  have hfewer : Good (afterDelete live id) files := h.fewer fun c hc => List.mem_of_mem_filter hc
  have hcodes : ∀ e ∈ listed files id, ∀ c ∈ afterDelete live id, c.locator ≠ e.locator := by
    intro e he c hc heq
    obtain ⟨hmem, hlibrary⟩ := List.mem_filter.mp hc
    obtain ⟨e', he', hlocator, -⟩ := (h.opens c hmem).2
    have hsame := h.apart c.library id e' e he' he (by rw [hlocator, heq])
    simp [hsame] at hlibrary
  unfold deleteLibrary
  refine Program.keeps_bind (load_keeps h (.inl rfl) (fun e => .inl rfl) ?_)
  refine Program.keeps_bind ((deleteLocators_keeps hfewer hcodes fun f hf => .inr hf).mono ?_)
  rintro (e | ⟨⟩) f ⟨hgood, hgone⟩
  · exact .inr hgood
  have herased : Good (afterDelete live id) (Assoc.erase f (.lib id)) := by
    refine hgood.erase fun locator howner => ?_
    obtain ⟨hbefore, hnone⟩ := hgone rfl id locator howner
    obtain ⟨e, he, hlocator⟩ := h.owned locator id hbefore
    exact hnone e he hlocator
  refine keeps_delete trivial (.inr hgood) (fun _ => ⟨.inr herased, ?_⟩) fun _ e => .inr hgood
  exact keeps_sync trivial (.inr herased) (fun _ => .inr herased) fun _ e => .inr herased

end

/-! ## Runs -/

/-- A create does not meet an entry of its locator that has no locator file: one a failed create left behind. -/
def Unlisted (s : State) : Event → Prop
  | .create _ _ locator _ _ _ => ∀ l ∈ locator, Assoc.get s.files (.loc l) = none →
    ∀ f ∈ s.files, ∀ e ∈ (match f.2 with | .entries es => es.entries | .owner _ => []), e.locator ≠ l
  | _ => True

instance (s : State) (e : Event) : Decidable (Unlisted s e) := by
  cases e <;> unfold Unlisted <;> infer_instance

theorem Unlisted.notListed {member : Bool} {locator sealed : Option String} {fates : Fates}
    (h : Unlisted s (.create id member locator sealed now fates)) (hgood : Good s.live s.files) (l : String)
    (hl : l ∈ locator) (hfree : owner s.files l = none) : NotListed s.files l := by
  intro id' e he
  have hnone : Assoc.get s.files (.loc l) = none := by rw [hgood.get_loc, hfree]; rfl
  exact h l hl hnone _ (Assoc.mem_of_get (hgood.get_lib he)) e he

theorem drop_good (hgood : Good s.live s.files) {f : Files} {gone : Code → Bool}
    (h : f = s.files ∨ Good (s.live.filter fun c => !gone c) f) :
    Good (s.drop f gone).live (s.drop f gone).files := by
  unfold State.drop
  by_cases hsame : f = s.files
  · subst hsame
    simp only [if_true]
    exact hgood
  · simp only [if_neg hsame]
    exact h.resolve_left hsame

theorem step_good {e : Event} (hgood : Good s.live s.files) (hunlisted : Unlisted s e) :
    Good (step s e).live (step s e).files := by
  cases e with
  | create id member locator sealed now fates =>
    have hkeeps := create_keeps hgood May.any id member sealed now
      fun l hl hfree => hunlisted.notListed hgood l hl hfree
    simp only [step]
    cases hrun : Storage.run (scripted fates) (create id member locator sealed now) s.files with
    | mk files a =>
      cases a with
      | none => exact run_dies (within_any _) hkeeps hgood hrun
      | some => exact run_ends (within_any _) hkeeps hrun
  | remove id locator fates => exact drop_good hgood (run_keeps fates (.inl rfl) (remove_keeps hgood id locator))
  | openCode locator now fates => exact run_keeps fates hgood (openCode_keeps hgood locator now)
  | deleteLibrary id fates => exact drop_good hgood (run_keeps fates (.inl rfl) (deleteLibrary_keeps hgood id))

/-- What `open` answers where no operation fails. -/
theorem openCode_answer (h : Good live files) {c : Code} (hc : c ∈ live) (now : ℕ) :
    (Storage.run (failing []) (openCode (some c.locator) now) files).2 = some (.sealed c.sealed) := by
  obtain ⟨hlibrary, e, he, hlocator, hsealed⟩ := h.opens c hc
  have hvalid : (some c.locator).filter (validLocator ·) = some c.locator := by simp [h.valid c hc]
  have hloc : Assoc.get files (.loc c.locator) = some (.owner c.library) := by rw [h.get_loc, hlibrary]; rfl
  have hlib := h.get_lib he
  have hfind : (listed files c.library).find? (·.locator = c.locator) = some e := by
    rw [← hlocator]
    exact List.find?_of_nodup_map (h.nodup c.library) he
  simp only [Storage.run, openCode, hvalid, ownerOf, load, Program.bind, Program.run, act, failing,
    Assoc.get_nil, found, effect, hloc, hlib, lt_irrefl, if_false, hfind, countOpen, save]
  split_ifs <;> simp only [Program.bind, Program.run, act, failing, Assoc.get_nil, found, hsealed]

def sampleLocator : String := "0123456789abcdef0123456789abcdef"

def sampleSealed (c : Char) : String := String.ofList (List.replicate 40 c)

def sampleCreate (id : String) (c : Char) (fates : Fates) : Event :=
  .create id true (some sampleLocator) (some (sampleSealed c)) 5 fates

/-- A code is made and opened, its library fails to remove it, and another library is refused its locator. -/
def sampleRun : List Event :=
  [sampleCreate "a" 'A' [], .openCode (some sampleLocator) 6 [],
   .remove "a" (some sampleLocator) [.ok, .err .other],
    sampleCreate "b" 'B' []]

end DenEdge.Recovery
