import DenEdge.Wake.Effects

/-!
# A removed controller stays out

What the store says of a library's controllers is one thing said twice, in the index and in the records; and the
controllers in memory are among them. A removal takes a controller out of all three. The one thing that could
bring it back is a poll that read its record before: it writes the record it read. In the runs in which no such
poll gets the lock, removed is removed.
-/

namespace DenEdge.Wake

variable {s s' : State}

/-- No target of the one is in the way of a target of the other. -/
def Apart (targets others : List Target) : Prop := ∀ t ∈ targets, ∀ o ∈ others, t.meets o = false

theorem Target.meets_comm (t other : Target) : t.meets other = other.meets t := by
  unfold Target.meets
  rw [decide_eq_decide.mpr (eq_comm (a := t.id)), decide_eq_decide.mpr (eq_comm (a := t.inbox)),
    decide_eq_decide.mpr (eq_comm (a := t.tv))]

variable {targets : List Target}

theorem Apart.symm {others : List Target} (h : Apart targets others) : Apart others targets := by
  intro o ho t ht
  rw [Target.meets_comm]
  exact h t ht o ho

/-! ## What the store and the memory say of the controllers -/

/-- A poll with the lock writes a record that is there, and its targets are in no other controller's way. -/
structure Section.Standing (h : Section) (s : State) : Prop where
  owner : Assoc.get s.owners h.stored.controller = some h.stored.library
  record : (Assoc.get s.records h.stored.controller).isSome
  distinct : Distinct h.targets
  apart : ∀ c r, c ≠ h.stored.controller → Assoc.get s.records c = some r → r.library = h.stored.library →
    Apart h.targets r.targets

structure Good (s : State) : Prop where
  enrolled : ∀ c library, Assoc.get s.owners c = some library → c < s.nextController
  record : ∀ c r, Assoc.get s.records c = some r →
    r.controller = c ∧ Assoc.get s.owners c = some r.library ∧ c ∈ s.index r.library ∧ Distinct r.targets
  listed : ∀ library, ∀ c ∈ s.index library, ∃ r, Assoc.get s.records c = some r ∧ r.library = library
  few : ∀ library, (s.index library).length ≤ MAX_CONTROLLERS
  apart : ∀ c c' r r', c ≠ c' → Assoc.get s.records c = some r → Assoc.get s.records c' = some r' →
    r.library = r'.library → Apart r.targets r'.targets
  removed : ∀ c ∈ s.removed, c < s.nextController ∧ Assoc.get s.records c = none
  memory : ∀ library c, (Assoc.get s.memory (library, c)).isSome →
    ∃ r, Assoc.get s.records c = some r ∧ r.library = library
  polls : ∀ p ∈ s.polls, Assoc.get s.owners p.stored.controller = some p.stored.library
  holder : ∀ h, s.holder = some h → h.Standing s

theorem good_init : Good init := by
  refine ⟨?_, ?_, ?_, ?_, ?_, ?_, ?_, ?_, ?_⟩ <;> simp [init, State.index]

/-- A step that is not about which controllers there are. -/
structure Stills (s s' : State) : Prop where
  records : s'.records = s.records
  indexes : s'.indexes = s.indexes
  owners : s'.owners = s.owners
  next : s'.nextController = s.nextController
  removed : s'.removed = s.removed
  memory : ∀ library c, (Assoc.get s'.memory (library, c)).isSome →
    (Assoc.get s.memory (library, c)).isSome ∨ ∃ r, Assoc.get s.records c = some r ∧ r.library = library
  polls : ∀ p ∈ s'.polls, ∃ q ∈ s.polls, p.stored = q.stored
  holder : ∀ h', s'.holder = some h' →
    h'.Standing s ∨ ∃ h, s.holder = some h ∧ h'.stored = h.stored ∧ h'.targets = h.targets

theorem Stills.refl (s : State) : Stills s s :=
  ⟨rfl, rfl, rfl, rfl, rfl, fun _ _ h => .inl h, fun p hp => ⟨p, hp, rfl⟩, fun h hh => .inr ⟨h, hh, rfl, rfl⟩⟩

theorem Section.Standing.congr {h h' : Section} (hs : h.Standing s) (hstored : h'.stored = h.stored)
    (htargets : h'.targets = h.targets) : h'.Standing s := by
  obtain ⟨howner, hrecord, hdistinct, hapart⟩ := hs
  refine ⟨?_, ?_, ?_, ?_⟩
  · rw [hstored]
    exact howner
  · rw [hstored]
    exact hrecord
  · rw [htargets]
    exact hdistinct
  · rw [hstored, htargets]
    exact hapart

theorem Good.stills (h : Good s) (hstills : Stills s s') : Good s' := by
  cases s'
  obtain ⟨hrecords, hindexes, howners, hnext, hremoved, hmemory, hpolls, hholder⟩ := hstills
  dsimp only at hrecords hindexes howners hnext hremoved
  subst hrecords hindexes howners hnext hremoved
  -- the store is the same, so what is said of it alone stands
  refine { h with memory := ?_, polls := ?_, holder := ?_ }
  · intro library c hc
    exact (hmemory library c hc).elim (h.memory library c) id
  · intro p hp
    obtain ⟨q, hq, hsame⟩ := hpolls p hp
    rw [hsame]
    exact h.polls q hq
  · intro h' hh'
    rcases hholder h' hh' with hnew | ⟨before, hbefore, hstored, htargets⟩
    · exact { hnew with }
    · exact { (h.holder _ hbefore).congr hstored htargets with }

variable {p : Poll}
variable {i : ℕ} {r : StoredController} {library : String}

/-- A step that only moves a poll on. -/
theorem stills_set {p' : Poll} (hp : s.polls[i]? = some p) (hsame : p'.stored = p.stored)
    (answers : List Answer) : Stills s { s with polls := s.polls.set i p', answers := answers } := by
  refine { Stills.refl s with polls := fun q hq => ?_ }
  rcases List.mem_or_eq_of_mem_set hq with hold | rfl
  · exact ⟨q, hold, rfl⟩
  · exact ⟨p, List.mem_of_getElem? hp, hsame⟩

/-! ## Enrolments and removals -/

theorem index_set (s : State) (library library' : String) (ids : List ℕ) :
    ({ s with indexes := Assoc.set s.indexes library ids } : State).index library' =
      if library' = library then ids else s.index library' := by
  unfold State.index
  rw [Assoc.get_set]
  split_ifs <;> rfl

theorem index_erase (s : State) (library library' : String) :
    ({ s with indexes := Assoc.erase s.indexes library } : State).index library' =
      if library' = library then [] else s.index library' := by
  unfold State.index
  rw [Assoc.get_erase]
  split_ifs <;> rfl

variable {c : ℕ}

section

variable (h : Good s)
include h

/-- A record's controller is not the next one. -/
theorem Good.next_fresh (hr : Assoc.get s.records c = some r) :
    c ≠ s.nextController := by
  have hlt := h.enrolled c r.library (h.record c r hr).2.1
  exact Nat.ne_of_lt hlt

theorem Good.enroll (hnone : s.holder = none) (sha : Digest) (library secret : String) :
    Good (enroll sha s library secret) := by
  unfold Wake.enroll
  dsimp only
  split_ifs with hfull
  · exact h
  have hindex : ∀ library', State.index { s with
      records := Assoc.set s.records s.nextController ⟨s.nextController, library, sha.of secret, [], []⟩
      indexes := Assoc.set s.indexes library (s.index library ++ [s.nextController])
      nextController := s.nextController + 1
      owners := Assoc.set s.owners s.nextController library } library' =
        if library' = library then s.index library ++ [s.nextController] else s.index library' :=
    fun library' => index_set s library library' _
  have hdistinct : Distinct [] := ⟨List.nodup_nil, List.nodup_nil⟩
  -- a record that was there is the same
  have hkept : ∀ c library', (∃ r, Assoc.get s.records c = some r ∧ r.library = library') → ∃ r, Assoc.get
      (Assoc.set s.records s.nextController ⟨s.nextController, library, sha.of secret, [], []⟩) c = some r ∧
        r.library = library' := by
    rintro c library' ⟨r, hr, hrlib⟩
    refine ⟨r, ?_, hrlib⟩
    rw [Assoc.get_set, if_neg (h.next_fresh hr)]
    exact hr
  refine ⟨?_, ?_, ?_, ?_, ?_, ?_, ?_, ?_, ?_⟩
  · intro c library' hc
    change Assoc.get (Assoc.set s.owners s.nextController library) c = some library' at hc
    show c < s.nextController + 1
    rcases Assoc.get_of_set hc with ⟨heq, -⟩ | ⟨-, hc⟩
    · omega
    · have hlt := h.enrolled c library' hc
      omega
  · intro c r hr
    rw [hindex]
    show _ ∧ Assoc.get (Assoc.set s.owners s.nextController library) c = _ ∧ _
    rw [Assoc.get_set]
    rcases Assoc.get_of_set hr with ⟨rfl, rfl⟩ | ⟨hne, hold⟩
    · rw [if_pos rfl, if_pos rfl]
      exact ⟨rfl, rfl, List.mem_concat_self, hdistinct⟩
    · obtain ⟨hid, howner, hmem, hd⟩ := h.record c r hold
      refine ⟨hid, by rw [if_neg hne]; exact howner, ?_, hd⟩
      split_ifs with hlib
      · rw [hlib] at hmem
        exact List.mem_append_left _ hmem
      · exact hmem
  · intro library' c hc
    rw [hindex] at hc
    split_ifs at hc with hlib
    · subst hlib
      rcases List.mem_snoc.mp hc with hmem | rfl
      · exact hkept c library' (h.listed library' c hmem)
      · refine ⟨⟨s.nextController, library', sha.of secret, [], []⟩, ?_, rfl⟩
        exact (Assoc.get_set _ _ _ _).trans (if_pos rfl)
    · exact hkept c library' (h.listed library' c hc)
  · intro library'
    rw [hindex]
    split_ifs
    · rw [List.length_append, List.length_singleton]
      omega
    · exact h.few library'
  · intro c c' r r' hne hr hr' hlib
    -- the new record has no targets yet
    rcases Assoc.get_of_set hr with ⟨-, rfl⟩ | ⟨-, hold⟩
    · exact fun t ht => absurd ht List.not_mem_nil
    · rcases Assoc.get_of_set hr' with ⟨-, rfl⟩ | ⟨-, hold'⟩
      · exact fun t _ o ho => absurd ho List.not_mem_nil
      · exact h.apart c c' r r' hne hold hold' hlib
  · intro c hc
    obtain ⟨hlt, hgone⟩ := h.removed c hc
    refine ⟨Nat.lt_succ_of_lt hlt, ?_⟩
    exact (Assoc.get_set _ _ _ _).trans ((if_neg (Nat.ne_of_lt hlt)).trans hgone)
  · exact fun library' c hc => hkept c library' (h.memory library' c hc)
  · intro p hp
    have howner := h.polls p hp
    have hlt := h.enrolled _ _ howner
    exact (Assoc.get_set _ _ _ _).trans ((if_neg (Nat.ne_of_lt hlt)).trans howner)
  · intro h' hh'
    cases hnone.symm.trans hh'

/-- Controllers go, from the index, from the records and from the memory; and those that were removed are among
them. -/
theorem Good.remove (hnone : s.holder = none) {records : List (ℕ × StoredController)}
    {indexes : List (String × List ℕ)} {memory : List ((String × ℕ) × Controller)} {removed : List ℕ}
    (out : ℕ → Prop)
    [DecidablePred out] (hrecords : ∀ c, Assoc.get records c = if out c then none else Assoc.get s.records c)
    (hindexes : ∀ library, State.index { s with indexes := indexes } library =
      (s.index library).filter fun c => ¬ out c)
    (hmemory : ∀ library c, (Assoc.get memory (library, c)).isSome → ¬ out c ∧
      (Assoc.get s.memory (library, c)).isSome)
    (hremoved : ∀ c ∈ removed, c ∈ s.removed ∨ (c < s.nextController ∧ (out c ∨ Assoc.get s.records c = none))) :
    Good { s with records := records, indexes := indexes, memory := memory, removed := removed } := by
  have hold : ∀ c r, Assoc.get records c = some r → ¬ out c ∧ Assoc.get s.records c = some r := by
    intro c r hr
    rw [hrecords] at hr
    split_ifs at hr with hout
    exact ⟨hout, hr⟩
  have hkept : ∀ c library, ¬ out c → (∃ r, Assoc.get s.records c = some r ∧ r.library = library) →
      ∃ r, Assoc.get records c = some r ∧ r.library = library := by
    intro c library hout hstored
    rw [hrecords, if_neg hout]
    exact hstored
  refine ⟨h.enrolled, ?_, ?_, ?_, ?_, ?_, ?_, h.polls, ?_⟩
  · intro c r hr
    obtain ⟨hout, hr⟩ := hold c r hr
    obtain ⟨hid, howner, hmem, hd⟩ := h.record c r hr
    refine ⟨hid, howner, ?_, hd⟩
    exact hindexes _ ▸ List.mem_filter.mpr ⟨hmem, by simpa using hout⟩
  · intro library c hc
    obtain ⟨hmem, hout⟩ := List.mem_filter.mp (hindexes library ▸ hc)
    exact hkept c library (by simpa using hout) (h.listed library c hmem)
  · intro library
    exact (congrArg List.length (hindexes library)).trans_le ((List.length_filter_le _ _).trans (h.few library))
  · intro c c' r r' hne hr hr' hlib
    exact h.apart c c' r r' hne (hold c r hr).2 (hold c' r' hr').2 hlib
  · intro c hc
    dsimp only
    rw [hrecords]
    rcases hremoved c hc with hbefore | ⟨hlt, hout | hnone⟩
    · obtain ⟨hlt, hnone⟩ := h.removed c hbefore
      exact ⟨hlt, by rw [hnone, ite_self]⟩
    · exact ⟨hlt, if_pos hout⟩
    · exact ⟨hlt, by rw [hnone, ite_self]⟩
  · intro library c hc
    obtain ⟨hout, hc⟩ := hmemory library c hc
    exact hkept c library hout (h.memory library c hc)
  · intro h' hh'
    cases hnone.symm.trans hh'

/-- A controller is in the index of its own library alone. -/
theorem Good.index_owner (hc : c ∈ s.index library) :
    Assoc.get s.owners c = some library := by
  obtain ⟨r, hr, rfl⟩ := h.listed library c hc
  exact (h.record c r hr).2.1

/-- A controller of the library that its index does not have is not stored. -/
theorem Good.unlisted (howner : Assoc.get s.owners c = some library)
    (hc : c ∉ s.index library) : Assoc.get s.records c = none := by
  cases hr : Assoc.get s.records c with
  | none => rfl
  | some r =>
    obtain ⟨-, howner', hmem, -⟩ := h.record c r hr
    have hlib : library = r.library := Option.some.inj (howner.symm.trans howner')
    rw [hlib] at hc
    exact absurd hmem hc

theorem Good.deleteController (hnone : s.holder = none) (library : String) (c : ℕ) :
    Good (deleteController s library c) := by
  have hghost : ∀ c' ∈ (if Assoc.get s.owners c = some library then c :: s.removed else s.removed),
      c' ∈ s.removed ∨ (c' = c ∧ Assoc.get s.owners c = some library) := by
    intro c' hc'
    split_ifs at hc' with howner
    · rcases List.mem_cons.mp hc' with rfl | hmem
      · exact .inr ⟨rfl, howner⟩
      · exact .inl hmem
    · exact .inl hc'
  unfold Wake.deleteController
  dsimp only
  by_cases hlisted : c ∈ s.index library
  · rw [if_pos hlisted]
    have howner := h.index_owner hlisted
    refine h.remove hnone (· = c) ?_ ?_ ?_ ?_
    · intro c'
      exact Assoc.get_erase _ _ _
    · intro library'
      refine (index_set s library library' _).trans ?_
      split_ifs with hlib
      · rw [hlib]
      · -- no other library has it
        refine (List.filter_eq_self.mpr ?_).symm
        intro c' hc'
        have hother := h.index_owner hc'
        have hne : c' ≠ c := by
          rintro rfl
          exact hlib (Option.some.inj (hother.symm.trans howner))
        simpa using hne
    · intro library' c' hc'
      change (Assoc.get (Assoc.erase s.memory (library, c)) (library', c')).isSome at hc'
      rw [Assoc.get_erase] at hc'
      split_ifs at hc' with heq
      · cases hc'
      · refine ⟨?_, hc'⟩
        rintro rfl
        obtain ⟨r, hr, hrlib⟩ := h.memory library' c' hc'
        have hlib := (h.record c' r hr).2.1
        rw [hrlib, howner] at hlib
        exact heq (by rw [Option.some.inj hlib])
    · intro c' hc'
      rcases hghost c' hc' with hmem | ⟨rfl, howner⟩
      · exact .inl hmem
      · exact .inr ⟨h.enrolled _ _ howner, .inl rfl⟩
  · rw [if_neg hlisted]
    refine { h with removed := fun c' hc' => ?_, holder := fun h' hh' => ?_ }
    · rcases hghost c' hc' with hmem | ⟨rfl, howner⟩
      · exact h.removed c' hmem
      · exact ⟨h.enrolled _ _ howner, h.unlisted howner hlisted⟩
    · cases hnone.symm.trans hh'

omit h in
theorem mem_libraryControllers :
    r ∈ s.libraryControllers library ↔ ∃ c ∈ s.index library, Assoc.get s.records c = some r :=
  List.mem_filterMap

theorem Good.deleteLibrary (hnone : s.holder = none) (library : String) : Good (deleteLibrary s library) := by
  -- the records that are deleted are those the index has
  have hids : ∀ c, c ∈ (s.libraryControllers library).map StoredController.controller ↔ c ∈ s.index library := by
    intro c
    rw [List.mem_map]
    constructor
    · rintro ⟨r, hr, rfl⟩
      obtain ⟨c, hc, hget⟩ := mem_libraryControllers.mp hr
      rw [(h.record c r hget).1]
      exact hc
    · intro hc
      obtain ⟨r, hr, -⟩ := h.listed library c hc
      exact ⟨r, mem_libraryControllers.mpr ⟨c, hc, hr⟩, (h.record c r hr).1⟩
  refine h.remove hnone (· ∈ s.index library) ?_ ?_ ?_ ?_
  · intro c
    refine (Assoc.get_foldl_erase _ s.records c).trans ?_
    simp only [hids]
  · intro library'
    refine (index_erase s library library').trans ?_
    split_ifs with hlib
    · rw [hlib]
      exact (List.filter_eq_nil_iff.mpr fun c hc => by simpa using hc).symm
    · refine (List.filter_eq_self.mpr ?_).symm
      intro c hc
      have hne : c ∉ s.index library := by
        intro hc'
        exact hlib (Option.some.inj ((h.index_owner hc).symm.trans (h.index_owner hc')))
      simpa using hne
  · intro library' c hc
    change (Assoc.get (s.memory.filter fun e => e.1.1 ≠ library) (library', c)).isSome at hc
    rw [Assoc.get_filter_key s.memory (fun k => k.1 ≠ library)] at hc
    split_ifs at hc with hlib
    · refine ⟨?_, hc⟩
      intro hmem
      obtain ⟨r, hr, hrlib⟩ := h.memory library' c hc
      have howner := (h.record c r hr).2.1
      rw [hrlib, h.index_owner hmem] at howner
      rw [Option.some.inj howner] at hlib
      simp at hlib
    · cases hc
  · intro c hc
    rcases List.mem_append.mp hc with howned | hmem
    · obtain ⟨hlt, howner⟩ := List.mem_filter.mp howned
      refine .inr ⟨List.mem_range.mp hlt, ?_⟩
      by_cases hlisted : c ∈ s.index library
      · exact .inl hlisted
      · exact .inr (h.unlisted (of_decide_eq_true howner) hlisted)
    · exact .inl hmem

/-! ## Polls -/

omit h in
theorem validPoll_distinct {acks : List ℕ} (h : validPoll targets acks = true) : Distinct targets := by
  unfold validPoll at h
  simp only [Bool.and_eq_true, decide_eq_true_eq] at h
  exact h.1.2

/-- Targets that no other controller of the library has are apart from those of each. -/
theorem Good.not_conflicts {stored : StoredController} (hfree : ¬ conflicts s stored targets = true)
    (hne : c ≠ stored.controller) (hr : Assoc.get s.records c = some r)
    (hlib : r.library = stored.library) : Apart targets r.targets := by
  intro t ht o ho
  obtain ⟨hid, -, hmem, -⟩ := h.record c r hr
  rw [hlib] at hmem
  by_contra hmeets
  refine hfree (List.any_eq_true.mpr ⟨r, mem_libraryControllers.mpr ⟨c, hmem, hr⟩, ?_⟩)
  have hother : decide (r.controller ≠ stored.controller) = true := decide_eq_true (by rw [hid]; exact hne)
  rw [hother]
  exact List.any_eq_true.mpr ⟨o, ho, List.any_eq_true.mpr ⟨t, ht, by simpa using hmeets⟩⟩

theorem entered_stills {acks : List ℕ} {c : Controller} {watermarks : List (String × ℕ)} {generation : ℕ}
    {todo : List (Source × Target)} {handled : List (String × Source × ℕ)} (hp : s.polls[i]? = some p)
    (hvalid : validPoll targets acks = true) (hconflict : ¬ conflicts s p.stored targets = true)
    (hrecord : (Assoc.get s.records p.stored.controller).isSome) :
    Stills s { s with
      memory := Assoc.set s.memory (p.stored.library, p.stored.controller) c
      polls := superseding s i p
      holder := some ⟨i, { p.stored with watermarks := watermarks }, targets, generation, todo, handled⟩ } := by
  have howner := h.polls p (List.mem_of_getElem? hp)
  refine ⟨rfl, rfl, rfl, rfl, rfl, ?_, ?_, ?_⟩
  · intro library c hc
    rw [Assoc.get_set] at hc
    split_ifs at hc with hkey
    · -- the record that is there is the library's
      obtain ⟨hlib, hid⟩ := Prod.mk.inj hkey
      obtain ⟨r, hr⟩ := Option.isSome_iff_exists.mp hrecord
      have howner' := (h.record _ r hr).2.1
      rw [hid, hlib]
      exact .inr ⟨r, hr, Option.some.inj (howner'.symm.trans howner)⟩
    · exact .inl hc
  · intro q hq
    rcases List.mem_or_eq_of_mem_set hq with hold | rfl
    · obtain ⟨q', hq', rfl⟩ := List.mem_map.mp hold
      refine ⟨q', hq', ?_⟩
      split_ifs <;> rfl
    · exact ⟨p, List.mem_of_getElem? hp, rfl⟩
  · intro h' hh'
    obtain rfl := Option.some.inj hh'
    exact .inl ⟨howner, hrecord, validPoll_distinct hvalid, fun c r hne hr hlib =>
      h.not_conflicts hconflict hne hr hlib⟩

omit h in
theorem get_store (s : State) (h : Section) (p : Poll) (hold : Bool) (c : ℕ) :
    Assoc.get (store s h p hold).records c =
      if c = h.stored.controller then some { h.stored with targets := h.targets } else Assoc.get s.records c :=
  Assoc.get_set _ _ _ _

theorem Good.store {section_ : Section} (hholder : s.holder = some section_)
    (hp : s.polls[section_.poll]? = some p) (hold : Bool) : Good (store s section_ p hold) := by
  obtain ⟨howner, hrecord, hdistinct, hapart⟩ := h.holder section_ hholder
  obtain ⟨r₀, hr₀⟩ := Option.isSome_iff_exists.mp hrecord
  obtain ⟨-, howner₀, hmem₀, -⟩ := h.record _ r₀ hr₀
  have hlib₀ : r₀.library = section_.stored.library := Option.some.inj (howner₀.symm.trans howner)
  -- which controllers are stored, and for which library, is as before
  have hsame : ∀ c r, Assoc.get s.records c = some r →
      ∃ r', Assoc.get (Wake.store s section_ p hold).records c = some r' ∧ r'.library = r.library := by
    intro c r hr
    rw [get_store]
    split_ifs with hc
    · subst hc
      obtain rfl : r₀ = r := Option.some.inj (hr₀.symm.trans hr)
      exact ⟨_, rfl, hlib₀.symm⟩
    · exact ⟨r, hr, rfl⟩
  refine ⟨h.enrolled, ?_, ?_, h.few, ?_, ?_, ?_, ?_, ?_⟩
  · intro c r hr
    rcases Assoc.get_of_set hr with ⟨rfl, rfl⟩ | ⟨-, hbefore⟩
    · refine ⟨rfl, howner, ?_, hdistinct⟩
      rw [hlib₀] at hmem₀
      exact hmem₀
    · exact h.record c r hbefore
  · intro library c hc
    obtain ⟨r, hr, rfl⟩ := h.listed library c hc
    exact hsame c r hr
  · intro c c' r r' hne hr hr' hlib
    rcases Assoc.get_of_set hr with ⟨hc, rfl⟩ | ⟨hc, hbefore⟩
    · rcases Assoc.get_of_set hr' with ⟨hc', rfl⟩ | ⟨hc', hbefore'⟩
      · exact absurd (hc.trans hc'.symm) hne
      · exact hapart c' r' hc' hbefore' hlib.symm
    · rcases Assoc.get_of_set hr' with ⟨-, rfl⟩ | ⟨-, hbefore'⟩
      · exact (hapart c r hc hbefore hlib).symm
      · exact h.apart c c' r r' hne hbefore hbefore' hlib
  · intro c hc
    obtain ⟨hlt, hnone⟩ := h.removed c hc
    refine ⟨hlt, ?_⟩
    rw [get_store, if_neg]
    · exact hnone
    · rintro rfl
      cases hnone.symm.trans hr₀
  · intro library c hc
    obtain ⟨r, hr, rfl⟩ := h.memory library c hc
    exact hsame c r hr
  · exact List.forall_mem_set h.polls (h.polls p (List.mem_of_getElem? hp))
  · intro h' hh'
    cases hh'

theorem step_good (sha : Digest) {a : Act} (hstanding : Standing s a) : Good (step sha s a) := by
  have hdoes := step_does sha s a
  generalize step sha s a = s' at hdoes
  cases hdoes with
  | raised _ _ _ _ _ _ hmemory hholder =>
    refine h.stills { Stills.refl s with
      memory := fun _ _ hc => .inl ((hmemory _).isSome.symm.trans hc), holder := ?_ }
    intro h' hh'
    obtain ⟨before, todo, hbefore, rfl⟩ := hholder h' hh'
    exact .inr ⟨before, hbefore, rfl, rfl⟩
  | enroll hnone library secret => exact h.enroll hnone sha library secret
  | deleteController hnone library c => exact h.deleteController hnone library c
  | deleteLibrary hnone library => exact h.deleteLibrary hnone library
  | authenticate hstored =>
    obtain ⟨hget, -⟩ := Option.filter_eq_some_iff.mp hstored
    obtain ⟨hid, howner, -, -⟩ := h.record _ _ hget
    refine { h with polls := List.forall_mem_snoc h.polls ?_, holder := fun h' hh' => ?_ }
    · rw [hid]
      exact howner
    · exact { h.holder h' hh' with }
  | entered hp hvalid hfree => exact h.stills (entered_stills h hp hvalid hfree (hstanding _ hp))
  | refused hp => exact h.stills (stills_set hp (by rfl) s.answers)
  | store hholder hp hold => exact h.store hholder hp hold
  | answered hp _ hstored => exact h.stills (stills_set hp hstored _)
  | restart =>
    refine h.stills ⟨rfl, rfl, rfl, rfl, rfl, ?_, ?_, ?_⟩
    · intro library c hc
      cases hc
    · intro p hp
      cases hp
    · intro h' hh'
      cases hh'

end

theorem reached_good (sha : Digest) {as : List Act} (hmeets : Run.Meets (step sha) Standing init as) :
    Good (Run.exec (step sha) init as) :=
  Run.exec_inv (I := Good) (fun _ _ h hstanding => step_good h sha hstanding) good_init hmeets

/-- **A removed controller stays out.** In every run in which a poll gets the lock only while its controller's
record is there: a controller that was removed, itself or with its library, is accepted with no secret, has no
record, and is not in memory; and a library's index lists exactly the controllers whose records exist, at most
four, no two of which name one target. -/
theorem removed_controllers_stay_out (sha : Digest) (as : List Act)
    (hmeets : Run.Meets (step sha) Standing init as) : (∀ c ∈ (Run.exec (step sha) init as).removed,
      (∀ secret, authenticate sha (Run.exec (step sha) init as) c secret = none) ∧
      Assoc.get (Run.exec (step sha) init as).records c = none ∧
      ∀ library, Assoc.get (Run.exec (step sha) init as).memory (library, c) = none) ∧
    ∀ library,
      (∀ c, c ∈ (Run.exec (step sha) init as).index library ↔
        ∃ r, Assoc.get (Run.exec (step sha) init as).records c = some r ∧ r.library = library) ∧
      ((Run.exec (step sha) init as).index library).length ≤ MAX_CONTROLLERS ∧
      ∀ c c' r r', Assoc.get (Run.exec (step sha) init as).records c = some r → r.library = library →
        Assoc.get (Run.exec (step sha) init as).records c' = some r' → r'.library = library →
        Distinct r.targets ∧ (c ≠ c' → ∀ t ∈ r.targets, ∀ t' ∈ r'.targets,
          t.id ≠ t'.id ∧ (t.inbox, t.tv) ≠ (t'.inbox, t'.tv)) := by
  have h := reached_good sha hmeets
  generalize Run.exec (step sha) init as = s at h
  refine ⟨?_, ?_⟩
  · intro c hc
    obtain ⟨-, hnone⟩ := h.removed c hc
    refine ⟨fun secret => ?_, hnone, fun library => ?_⟩
    · unfold authenticate
      rw [hnone]
      rfl
    · cases hget : Assoc.get s.memory (library, c) with
      | none => rfl
      | some =>
        obtain ⟨r, hr, -⟩ := h.memory library c (by rw [hget]; rfl)
        cases hnone.symm.trans hr
  · intro library
    refine ⟨fun c => ⟨h.listed library c, ?_⟩, h.few library, ?_⟩
    · rintro ⟨r, hr, rfl⟩
      exact (h.record c r hr).2.2.1
    · intro c c' r r' hr hlib hr' hlib'
      refine ⟨(h.record c r hr).2.2.2, fun hne t ht t' ht' => ?_⟩
      have hapart := h.apart c c' r r' hne hr hr' (hlib.trans hlib'.symm) t ht t' ht'
      unfold Target.meets at hapart
      simp only [Bool.or_eq_false_iff, Bool.and_eq_false_iff, decide_eq_false_iff_not] at hapart
      refine ⟨hapart.1, fun heq => ?_⟩
      obtain ⟨hinbox, htv⟩ := Prod.mk.inj heq
      rcases hapart.2 with hne' | hne'
      · exact hne' hinbox
      · exact hne' htv

/-! ## Samples -/

def sampleTarget : Target where
  id := "bbbbbbbbbbbbbbbbbbbbbbbbbbbbbbbb"
  name := "Living room"
  inbox := "0123456789abcdef0123456789abcdef0123456789abcdef0123456789abcdef"
  tv := "cccccccccccccccccccccccccccccccc"
  capabilities := ["companion-wake", "app-launch"]

/-- Two controllers are enrolled; the first registers a target and is removed, and its next poll is refused. -/
def sampleRemoval : List Act :=
  [.enroll "lib" "a", .enroll "lib" "b", .authenticate 0 "a", .enter 0 [sampleTarget] [], .look 0 true none,
    .look 0 true none, .store 0 false, .deleteController "lib" 0, .authenticate 0 "a", .authenticate 1 "b",
    .enter 1 [sampleTarget] [], .look 1 true none, .look 1 true none, .store 1 false]

theorem removed_controllers_stay_out_sample :
    Run.Meets (step .plain) Standing init sampleRemoval ∧
    (Run.exec (step .plain) init sampleRemoval).removed = [0] ∧
    (Run.exec (step .plain) init sampleRemoval).index "lib" = [1] ∧
    authenticate .plain (Run.exec (step .plain) init sampleRemoval) 0 "a" = none := by
  have hmeets : Run.Meets (step .plain) Standing init sampleRemoval := by decide +kernel
  have hremoved : (Run.exec (step .plain) init sampleRemoval).removed = [0] := by decide +kernel
  obtain ⟨hout, -⟩ := removed_controllers_stay_out .plain sampleRemoval hmeets
  exact ⟨hmeets, hremoved, by decide +kernel, (hout 0 (by rw [hremoved]; simp)).1 "a"⟩

/-- **A poll brings a removed controller back.** Its credential was proved before the removal; it gets the lock
after it, and writes the record it read. The credential is accepted again, and the index does not list the
controller. -/
theorem late_poll_restores_controller :
    let s := Run.exec (step .plain) init
      [.enroll "lib" "a", .authenticate 0 "a", .deleteController "lib" 0, .enter 0 [sampleTarget] [],
       .look 0 true none,
        .look 0 true none, .store 0 false]
    0 ∈ s.removed ∧ (authenticate .plain s 0 "a").isSome ∧ (Assoc.get s.memory ("lib", 0)).isSome ∧
      s.index "lib" = [] := by
  decide +kernel

end DenEdge.Wake
