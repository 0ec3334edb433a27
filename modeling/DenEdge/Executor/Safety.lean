import DenEdge.Executor.Check

/-!
# What the executor may call

The executor against a backend that may fail, or take effect and lose its answer, at any call, in a process that
may die at any moment. The world is the journal that is stored and the history of calls and answers.

* `Answers`: what a call may answer and do to the stored journal.
* `Allowed`: when each call may be made; `Recorded`: what holds of the stored journal.
* `drive_keeps`, `guarded_keeps`, `start_keeps`, `resume_keeps`: every program makes only calls that are allowed.
-/

namespace DenEdge.Executor

open Program

structure World where
  stored : Option Journal
  /-- The calls and their answers, the last one first. -/
  history : List (Σ c : Call, c.Answer)

/-- A call's answer, with what it did to the stored journal; a call that failed may have taken effect. -/
inductive Answers : World → (c : Call) → c.Answer → World → Prop where
  | loaded (w : World) : Answers w .loadJournal (.ok w.stored)
    ⟨w.stored, ⟨.loadJournal, .ok w.stored⟩ :: w.history⟩
  | persisted (w : World) (journal : Journal) :
      Answers w (.persistJournal journal) (.ok ()) ⟨some journal, ⟨.persistJournal journal, .ok ()⟩ :: w.history⟩
  | persistLost (w : World) (journal : Journal) (failure : Failure) :
      Answers w (.persistJournal journal) (.error failure)
        ⟨some journal, ⟨.persistJournal journal, .error failure⟩ :: w.history⟩
  /-- A journal of another attempt is not erased. -/
  | cleared (w : World) (attempt : String) (h : ∀ journal, w.stored = some journal → journal.attempt = attempt)
      (answer : Except Failure Unit) :
      Answers w (.clearJournal attempt) answer ⟨none, ⟨.clearJournal attempt, answer⟩ :: w.history⟩
  | effect (w : World) (c : Call) (result : c.Result) (hload : c ≠ .loadJournal)
      (hpersist : ∀ journal, c ≠ .persistJournal journal) (hclear : ∀ attempt, c ≠ .clearJournal attempt) :
      Answers w c (.ok result) ⟨w.stored, ⟨c, .ok result⟩ :: w.history⟩
  | failed (w : World) (c : Call) (failure : Failure) :
      Answers w c (.error failure) ⟨w.stored, ⟨c, .error failure⟩ :: w.history⟩

variable {core : Core} {w w' : World} {journal : Journal}
variable {c : Call} {answer : c.Answer} {failure : Failure}

theorem Answers.history (h : Answers w c answer w') :
    w'.history = ⟨c, answer⟩ :: w.history := by
  cases h <;> rfl

/-- Only a journal that is persisted or erased changes what is stored. -/
theorem Answers.stored (h : Answers w c answer w')
    (hpersist : ∀ journal, c ≠ .persistJournal journal) (hclear : ∀ attempt, c ≠ .clearJournal attempt) :
    w'.stored = w.stored := by
  cases h with
  | loaded => rfl
  | persisted journal | persistLost journal => exact absurd rfl (hpersist journal)
  | cleared attempt => exact absurd rfl (hclear attempt)
  | effect => rfl
  | failed => rfl

/-- What is loaded is what is stored. -/
theorem Answers.load {answer : Call.loadJournal.Answer} (h : Answers w .loadJournal answer w')
    {result : Option Journal} (hanswer : answer = .ok result) : w'.stored = result := by
  cases h with
  | loaded =>
    cases hanswer
    rfl
  | effect _ _ hload => exact absurd rfl hload
  | failed => cases hanswer

/-- A journal that is persisted is stored, or what was stored before still is. -/
theorem Answers.persist {answer : (Call.persistJournal journal).Answer}
    (h : Answers w (.persistJournal journal) answer w') :
    w'.stored = some journal ∨ (w'.stored = w.stored ∧ ∃ failure, answer = .error failure) := by
  cases h with
  | persisted => exact .inl rfl
  | persistLost => exact .inl rfl
  | effect _ _ _ hpersist => exact absurd rfl (hpersist journal)
  | failed _ failure => exact .inr ⟨rfl, failure, rfl⟩

/-! ## What is allowed -/

/-- The successor household was seen committed with exactly the directory the evidence gives, and the journal
records it. -/
def Observed (core : Core) (history : List (Σ c : Call, c.Answer)) (journal : Journal) : Prop :=
  ∃ request head directory recomputed,
    (⟨.observeSuccessorHousehold request,
      .ok (.committed (core.libraryId journal.newHouseholdKey) head directory)⟩ :
      Σ c : Call, c.Answer) ∈ history ∧
    request.attempt = journal.attempt ∧ request.successorKey = journal.newHouseholdKey ∧
    successorDirectory core journal = .ok recomputed ∧ sameDirectory core directory recomputed = true ∧
    journal.householdCommitted = true ∧ journal.successorHouseholdHead = some head

/-- The attempt is over: the successor was read back as adopted, den-edge ended the attempt, or den-edge refused
before the commit and took the abort. -/
inductive Over (journal : Journal) : List (Σ c : Call, c.Answer) → Prop where
  | adopted (request : AdoptionRequest) (locks : LockSet) (rest : List (Σ c : Call, c.Answer))
      (hrequest : adoptionRequest journal locks = some request) :
      Over journal (⟨.successorIsAdopted request, .ok true⟩ :: rest)
  | rolledBack (c : Call) (rest : List (Σ c : Call, c.Answer)) : Over journal (⟨c, .error .rolledBack⟩ :: rest)
  | aborted (request : AbortRequest) (c : Call) (reason : String) (rest : List (Σ c : Call, c.Answer))
      (hattempt : request.attempt = journal.attempt) (hcommitted : journal.householdCommitted = false) :
      Over journal (⟨.abortReset request, .ok .aborted⟩ :: ⟨c, .error (.refused reason)⟩ :: rest)

/-- One journal continues another: the same attempt, and nothing that was recorded is lost. -/
structure Continues (old new : Journal) : Prop where
  prepared : new.prepared = old.prepared
  locks : ∀ locks, old.locks = some locks → new.locks = some locks
  verified : allVerified old = true → allVerified new = true
  committed : old.householdCommitted = true → new.householdCommitted = true

/-- When each call may be made, by the journal that is stored. -/
def Allowed (core : Core) (w : World) : Call → Prop
  | .loadJournal => True
  | .persistJournal journal =>
    validate core journal = true ∧ ∀ stored, w.stored = some stored → Continues stored journal
  | .clearJournal attempt => ∃ stored, w.stored = some stored ∧ stored.attempt = attempt ∧ Over stored w.history
  | .acquireLocks request =>
    ∃ stored, w.stored = some stored ∧ stored.locks = none ∧ request = lockRequest core stored
  | .abortReset request => ∃ stored, w.stored = some stored ∧ stored.householdCommitted = false ∧
      request = ⟨stored.attempt, ⟨core.libraryId stored.oldHouseholdKey, stored.oldHouseholdKey⟩⟩
  | .moveAndVerifyProfile request => ∃ stored, w.stored = some stored ∧ allVerified stored = false ∧
      request.attempt = stored.attempt ∧ stored.locks = some request.locks
  | .publishSuccessorHousehold request => ∃ stored, w.stored = some stored ∧ allVerified stored = true ∧
      request.attempt = stored.attempt ∧ request.newKey = stored.newHouseholdKey ∧
      stored.successorDirectory = some request.directory ∧ stored.locks = some request.locks
  | .observeSuccessorHousehold request => ∃ stored, w.stored = some stored ∧ allVerified stored = true ∧
      request.attempt = stored.attempt ∧ request.successorKey = stored.newHouseholdKey ∧
      stored.successorDirectory = some request.directory ∧ stored.locks = some request.locks
  | .retireProfileLibrary request => ∃ stored, w.stored = some stored ∧ request.attempt = stored.attempt ∧
      stored.locks = some request.locks ∧ Observed core w.history stored
  | .retireHouseholdLibrary request => ∃ stored, w.stored = some stored ∧ request.attempt = stored.attempt ∧
      stored.locks = some request.locks ∧ request.oldKey = stored.oldHouseholdKey ∧ Observed core w.history stored
  | .adoptSuccessor request => ∃ stored, w.stored = some stored ∧ request.attempt = stored.attempt ∧
      allRetired stored = true
  | .successorIsAdopted request => ∃ stored, w.stored = some stored ∧ request.attempt = stored.attempt ∧
      allRetired stored = true

/-- What a journal records was answered. -/
structure Seen (core : Core) (history : List (Σ c : Call, c.Answer)) (journal : Journal) : Prop where
  observed : journal.householdCommitted = true → Observed core history journal
  acquired : ∀ locks, journal.locks = some locks → ∃ request : LockRequest, request.attempt = journal.attempt ∧
    (⟨.acquireLocks request, .ok locks⟩ : Σ c : Call, c.Answer) ∈ history
  retired : journal.oldHouseholdRetired = true → ∃ request : HouseholdRetirement,
    (⟨.retireHouseholdLibrary request, .ok ()⟩ : Σ c : Call, c.Answer) ∈ history

/-- What holds of the journal that is stored. -/
def Recorded (core : Core) (w : World) : Prop :=
  ∀ stored, w.stored = some stored → JournalOK core stored ∧ Seen core w.history stored

variable {history : List (Σ c : Call, c.Answer)}

theorem Observed.mono (h : Observed core history journal)
    (entry : Σ c : Call, c.Answer) : Observed core (entry :: history) journal := by
  obtain ⟨request, head, directory, recomputed, hmem, h⟩ := h
  exact ⟨request, head, directory, recomputed, List.mem_cons_of_mem _ hmem, h⟩

theorem Seen.mono (h : Seen core history journal)
    (entry : Σ c : Call, c.Answer) : Seen core (entry :: history) journal := by
  refine ⟨fun hc => (h.observed hc).mono entry, fun locks hlocks => ?_, fun hretired => ?_⟩
  · obtain ⟨request, hattempt, hmem⟩ := h.acquired locks hlocks
    exact ⟨request, hattempt, List.mem_cons_of_mem _ hmem⟩
  · obtain ⟨request, hmem⟩ := h.retired hretired
    exact ⟨request, List.mem_cons_of_mem _ hmem⟩

/-- What was answered stands for a journal that records as much of the same attempt. -/
theorem Seen.carry {journal' : Journal} (h : Seen core history journal)
    (hprepared : journal'.prepared = journal.prepared)
    (hsuccessor : journal.householdCommitted = true →
      successorDirectory core journal' = successorDirectory core journal)
    (hcommitted : journal'.householdCommitted = journal.householdCommitted)
    (hhead : journal'.successorHouseholdHead = journal.successorHouseholdHead)
    (hlocks : journal'.locks = journal.locks)
    (hretired : journal'.oldHouseholdRetired = journal.oldHouseholdRetired) : Seen core history journal' := by
  obtain ⟨hattempt, hkey, -⟩ := attempt_of_prepared hprepared
  refine ⟨fun hc => ?_, fun locks hl => ?_, fun hr => ?_⟩
  · rw [hcommitted] at hc
    have hobserved := h.observed hc
    unfold Observed at hobserved ⊢
    rw [hattempt, hkey, hsuccessor hc, hcommitted, hhead]
    exact hobserved
  · rw [hattempt]
    exact h.acquired locks (hlocks ▸ hl)
  · exact h.retired (hretired ▸ hr)

theorem Continues.refl (journal : Journal) : Continues journal journal := ⟨rfl, fun _ h => h, id, id⟩

theorem Continues.trans {a b c : Journal} (hab : Continues a b) (hbc : Continues b c) : Continues a c :=
  ⟨hbc.prepared.trans hab.prepared, fun locks h => hbc.locks locks (hab.locks locks h),
    hbc.verified ∘ hab.verified, hbc.committed ∘ hab.committed⟩

/-- A journal in hand that may be persisted: it passes its check, it continues the one that is stored, and what it
records was answered. -/
structure InHand (core : Core) (w : World) (journal : Journal) : Prop where
  ok : JournalOK core journal
  stored : ∃ stored, w.stored = some stored ∧ Continues stored journal
  seen : Seen core w.history journal

/-- What holds between two calls of a program with a journal in hand. -/
structure Ready (core : Core) (w : World) (journal : Journal) : Prop extends InHand core w journal where
  recorded : Recorded core w

/-- A failure that may end the attempt. It is always den-edge's answer to the last call. -/
def Failure.Ends : Failure → Prop
  | .rolledBack | .refused _ => True
  | .reset _ | .other _ => False

/-- What a program with a journal in hand leaves behind. -/
structure Left {α : Type} (core : Core) (outcome : Outcome α) (w : World) : Prop where
  recorded : Recorded core w
  stored : (∃ stored, w.stored = some stored ∧ Continues stored outcome.2) ∨
    (outcome.2.phase = .complete ∧ outcome.2.householdCommitted = true)
  cause : ∀ failure, outcome.1 = .error failure → failure.Ends → ∃ c rest, w.history = ⟨c, .error failure⟩ :: rest

/-- A program with a journal in hand makes only calls that are allowed. -/
abbrev Works {α : Type} (core : Core) (work : Executing (Outcome α)) (w : World) : Prop :=
  work.Keeps Answers (Allowed core) (Recorded core) (Left core) w

/-- So does a program that begins, or ends, without one. -/
abbrev Settles {α : Type} (core : Core) (work : Executing α) (w : World) : Prop :=
  work.Keeps Answers (Allowed core) (Recorded core) (fun _ w => Recorded core w) w

/-! ## One call -/

/-- A call that stores nothing leaves what is recorded. -/
theorem Recorded.answered (h : Recorded core w) (hw : Answers w c answer w')
    (hstored : w'.stored = w.stored) : Recorded core w' := by
  intro stored hs
  rw [hstored] at hs
  obtain ⟨hok, hseen⟩ := h stored hs
  rw [hw.history]
  exact ⟨hok, hseen.mono _⟩

/-- Erased or not, what is stored is recorded. -/
theorem Recorded.cleared {attempt : String} {answer : (Call.clearJournal attempt).Answer} (h : Recorded core w)
    (hw : Answers w (.clearJournal attempt) answer w') : Recorded core w' := by
  cases hw with
  | cleared => exact nofun
  | effect _ _ _ _ hclear => exact absurd rfl (hclear _)
  | failed _ failure => exact h.answered (.failed w _ failure) rfl

namespace Ready

theorem of_stored (h : Recorded core w) (hstored : w.stored = some journal) : Ready core w journal := by
  obtain ⟨hok, hseen⟩ := h journal hstored
  exact ⟨⟨hok, ⟨journal, hstored, .refl journal⟩, hseen⟩, h⟩

variable (h : Ready core w journal)
include h

theorem answered (hw : Answers w c answer w') (hstored : w'.stored = w.stored) :
    Ready core w' journal := by
  refine ⟨⟨h.ok, ?_, ?_⟩, h.recorded.answered hw hstored⟩
  · rw [hstored]
    exact h.stored
  · rw [hw.history]
    exact h.seen.mono _

/-- A journal in hand after a change of what is recorded. -/
theorem changed {journal' : Journal} (hok : JournalOK core journal') (hcontinues : Continues journal journal')
    (hseen : Seen core w.history journal') : Ready core w journal' := by
  obtain ⟨stored, hs, hstored⟩ := h.stored
  exact ⟨⟨hok, ⟨stored, hs, hstored.trans hcontinues⟩, hseen⟩, h.recorded⟩

/-- A change of the phase and of the effect that is about to be made records nothing. -/
theorem rephase {phase : Phase} {pending : Option EffectIntent}
    (hok : JournalOK core { journal with phase := phase, pending := pending }) :
    Ready core w { journal with phase := phase, pending := pending } :=
  h.changed hok ⟨rfl, fun _ h => h, id, id⟩ (h.seen.carry rfl (fun _ => rfl) rfl rfl rfl rfl)

variable {α : Type}

/-- A program that ends with the journal in hand. -/
theorem done (result : α) : Left core (.ok result, journal) w :=
  ⟨h.recorded, .inl h.stored, nofun⟩

/-- One whose last call failed. -/
theorem fails {rest : List (Σ c : Call, c.Answer)}
    (hhistory : w.history = ⟨c, .error failure⟩ :: rest) :
    Left core ((.error failure, journal) : Outcome α) w := by
  refine ⟨h.recorded, .inl h.stored, fun failure' hfailure' _ => ?_⟩
  cases hfailure'
  exact ⟨c, rest, hhistory⟩

/-- One that throws what does not end the attempt. -/
theorem throws (hends : ¬ failure.Ends) : Left core ((.error failure, journal) : Outcome α) w := by
  refine ⟨h.recorded, .inl h.stored, fun failure' hfailure' hends' => ?_⟩
  cases hfailure'
  exact absurd hends' hends

end Ready

variable {α : Type}

theorem keeps_throws (code : ErrorCode) (h : Ready core w journal) :
    Works core (throws (.reset code) journal : Executing (Outcome α)) w := h.throws id

/-- A call that stores nothing, with a journal in hand. -/
theorem keeps_ask {next : c.Result → Executing (Outcome α)} (h : Ready core w journal)
    (hpersist : ∀ journal, c ≠ .persistJournal journal) (hclear : ∀ attempt, c ≠ .clearJournal attempt)
    (hallowed : Allowed core w c)
    (hnext : ∀ result w', w'.stored = w.stored → w'.history = ⟨c, .ok result⟩ :: w.history →
      Ready core w' journal → Works core (next result) w') : Works core (ask c journal next) w := by
  refine ⟨hallowed, fun answer w' hw => ?_⟩
  have hstored := hw.stored hpersist hclear
  have hready := h.answered hw hstored
  refine ⟨hready.recorded, ?_⟩
  cases answer with
  | ok result => exact hnext result w' hstored hw.history hready
  | error => exact hready.fails hw.history

/-- **What is in hand may be persisted,** and is then what is stored. -/
theorem keeps_persisting {planner : Planner} {next : Unit → Executing (Outcome α)}
    (h : Ready planner.toCore w journal)
    (hnext : ∀ w', w'.stored = some journal → Ready planner.toCore w' journal →
      Works planner.toCore (next ()) w') :
    Works planner.toCore (ask (.persistJournal journal) journal next) w := by
  refine ⟨⟨h.ok.validate, ?_⟩, fun answer w' hw => ?_⟩
  · intro stored hs
    obtain ⟨stored', hs', hcontinues⟩ := h.stored
    rw [hs] at hs'
    cases hs'
    exact hcontinues
  · rcases hw.persist with hstored | ⟨hstored, failure, rfl⟩
    · have hready : Ready planner.toCore w' journal := by
        refine .of_stored (fun stored hs => ?_) hstored
        rw [hstored] at hs
        cases hs
        rw [hw.history]
        exact ⟨h.ok, h.seen.mono _⟩
      refine ⟨hready.recorded, ?_⟩
      cases answer with
      | ok => exact hnext w' hstored hready
      | error => exact hready.fails hw.history
    · have hready := h.answered hw hstored
      exact ⟨hready.recorded, hready.fails hw.history⟩

theorem keeps_persist {planner : Planner} (h : Ready planner.toCore w journal) :
    Works planner.toCore (persist journal) w := keeps_persisting h fun _ _ hready => hready.done ()

/-! ## One effect -/

section Effects

variable {planner : Planner} (h : Ready planner.toCore w journal) (hstored : w.stored = some journal)
include h hstored

omit hstored in
theorem acquire_keeps (hlocks : journal.locks = none) :
    Works planner.toCore (acquire planner.toCore { journal with phase := .prepared }) w := by
  -- a journal without locks is prepared already
  have hsame : { journal with phase := .prepared } = journal := by
    obtain ⟨hphase, -⟩ := h.ok.unlocked hlocks
    rw [← hphase]
  rw [hsame]
  refine keeps_persisting h fun w' hstored' h' => ?_
  refine keeps_ask h' (by simp) (by simp) ⟨journal, hstored', hlocks, rfl⟩
    fun locks w'' _ hhistory h'' => ?_
  split
  · exact keeps_throws _ h''
  rename_i hvalid
  have hok := h.ok.locked hlocks (not_not.mp hvalid)
  refine keeps_persist (h''.changed hok ⟨rfl, fun l hl => ?_, id, id⟩ ⟨?_, fun l hl => ?_, ?_⟩)
  · rw [hlocks] at hl
    cases hl
  · exact h''.seen.observed
  · cases hl
    refine ⟨lockRequest planner.toCore journal, rfl, ?_⟩
    rw [hhistory]
    exact List.mem_cons_self
  · exact h''.seen.retired

variable {locks : LockSet}

section

variable (hlocks : journal.locks = some locks)
include hlocks

theorem performMove_keeps {profile : String} (hpending : journal.pending = some (.moveProfile profile)) :
    Works planner.toCore (performMove planner.toCore profile journal locks) w := by
  obtain ⟨-, hcommitted⟩ := validPhase_pending h.ok.record.phase hpending
  unfold performMove
  dsimp only
  split
  · exact keeps_throws _ h
  rename_i evidence hfound
  have hthere := List.find?_some hfound
  have hmem := List.mem_of_find?_eq_some hfound
  have hmine : ∀ e : Evidence, (e.profile = profile && !e.verified) = true → e.verified = false := by
    intro e he
    rw [Bool.and_eq_true, Bool.not_eq_true'] at he
    exact he.2
  have hunverified : allVerified journal = false := by
    rw [allVerified, List.all_eq_false]
    exact ⟨evidence, hmem, by simp [hmine evidence hthere]⟩
  refine keeps_ask h (by simp) (by simp) ⟨journal, hstored, hunverified, rfl, hlocks⟩
    fun verified w' _ _ h' => ?_
  split
  · exact keeps_throws _ h'
  rename_i hverified
  rw [not_or, not_or, not_not, not_not, not_not] at hverified
  have hprepared := prepared_changeFirst journal (fun p => p.profile = profile && !p.verified)
    (Evidence.verifiedAt verified.copiedHead) (fun _ => rfl) .locked none
  have hok := h.ok.moved hlocks hcommitted _ hmine ⟨evidence, hmem, hthere⟩ hverified.2.2
  refine keeps_persist (h'.changed hok ⟨hprepared, fun _ h => h, fun hall => ?_, id⟩ ?_)
  · rw [hunverified] at hall
    cases hall
  · refine h'.seen.carry hprepared (fun hc => ?_) rfl rfl rfl rfl
    rw [hcommitted] at hc
    cases hc

omit hstored in
theorem performPublish_keeps (hpending : journal.pending = some .publishHousehold) :
    Works planner.toCore (performPublish journal locks) w := by
  obtain ⟨-, hcommitted⟩ := validPhase_pending h.ok.record.phase hpending
  unfold performPublish
  split
  · exact keeps_throws _ h
  rename_i directory hdirectory
  have hverified : allVerified journal = true := h.ok.record.successorVerified (by rw [hdirectory]; rfl)
  have hok := h.ok.rephase hlocks .commitUnknown (some .verifyHousehold)
    (by simp [validPhase, hdirectory, hcommitted])
  refine keeps_persisting (h.rephase hok) fun w' hstored' h' => ?_
  refine keeps_ask h' (by simp) (by simp) ⟨_, hstored', hverified, rfl, rfl, hdirectory, hlocks⟩
    fun _ w'' _ _ h'' => ?_
  exact h''.done ()

theorem performVerify_keeps (hpending : journal.pending = some .verifyHousehold) :
    Works planner.toCore (performVerify planner.toCore journal locks) w := by
  obtain ⟨-, hcommitted⟩ := validPhase_pending h.ok.record.phase hpending
  unfold performVerify
  split
  · exact keeps_throws _ h
  rename_i expected hexpected
  have hverified : allVerified journal = true := h.ok.record.successorVerified (by rw [hexpected]; rfl)
  refine keeps_ask h (by simp) (by simp) ⟨journal, hstored, hverified, rfl, rfl, hexpected, hlocks⟩
    fun observed w' hs hhistory h' => ?_
  cases observed with
  | absent =>
    have hok := h.ok.rephase hlocks .publishingHousehold (some .publishHousehold)
      (by simp [validPhase, hexpected, hcommitted])
    exact keeps_persist (h'.rephase hok)
  | unknown =>
    have hok := h.ok.rephase hlocks .commitUnknown journal.pending
      (by simp [validPhase, hpending, hexpected, hcommitted])
    exact keeps_persist (h'.rephase hok)
  | committed _ head directory =>
    dsimp only
    split
    · exact keeps_throws _ h'
    rename_i hmatch
    rw [not_or, not_or, not_not, not_not, not_not] at hmatch
    obtain ⟨rfl, hhead, hsame⟩ := hmatch
    have hok := h.ok.committed hlocks hexpected hhead
    refine keeps_persist (h'.changed hok ⟨rfl, fun _ h => h, id, fun _ => rfl⟩ ⟨fun _ => ?_, ?_, ?_⟩)
    · -- the directory seen is the one recorded, which is the one the evidence gives
      obtain ⟨recomputed, hrecomputed, hsame'⟩ := h.ok.record.successor expected hexpected
      refine ⟨⟨journal.attempt, journal.newHouseholdKey, expected, locks⟩, head, directory,
        recomputed, ?_, rfl, rfl, hrecomputed, sameDirectory_trans hsame hsame', rfl, rfl⟩
      rw [hhistory]
      exact List.mem_cons_self
    · exact h'.seen.acquired
    · exact h'.seen.retired

theorem performRetireProfile_keeps {profile : String}
    (hpending : journal.pending = some (.retireProfile profile)) :
    Works planner.toCore (performRetireProfile planner.toCore profile journal locks) w := by
  obtain ⟨hphase, hcommitted⟩ := validPhase_pending h.ok.record.phase hpending
  unfold performRetireProfile
  dsimp only
  split
  · exact keeps_throws _ h
  rw [if_neg (not_not.mpr hcommitted)]
  refine keeps_ask h (by simp) (by simp)
    ⟨journal, hstored, rfl, hlocks, h.seen.observed hcommitted⟩ fun _ w' _ _ h' => ?_
  have hprepared := prepared_changeFirst journal (fun p => p.profile = profile && !p.oldRetired) Evidence.retired
    (fun _ => rfl) journal.phase none
  have hok := h.ok.retiredProfile hlocks hphase hcommitted (fun p => p.profile = profile && !p.oldRetired)
  refine keeps_persist (h'.changed hok ⟨hprepared, fun _ h => h, fun _ => ?_, id⟩ ?_)
  · exact hok.record.committedVerified hcommitted
  · refine h'.seen.carry hprepared (fun _ => ?_) rfl rfl rfl rfl
    exact successorDirectory_congr journal _ rfl rfl
      (changeFirst_map _ _ Evidence.retired (fun _ => rfl) journal.profiles)

theorem performRetireHousehold_keeps (hpending : journal.pending = some .retireHousehold) :
    Works planner.toCore (performRetireHousehold planner.toCore journal locks) w := by
  obtain ⟨hphase, hcommitted⟩ := validPhase_pending h.ok.record.phase hpending
  unfold performRetireHousehold
  split
  · exact keeps_throws _ h
  refine keeps_ask h (by simp) (by simp)
    ⟨journal, hstored, rfl, hlocks, rfl, h.seen.observed hcommitted⟩ fun _ w' _ hhistory h' => ?_
  have hok := h.ok.retiredHousehold hlocks hphase hcommitted
  refine keeps_persist (h'.changed hok ⟨rfl, fun _ h => h, id, id⟩ ⟨?_, ?_, fun _ => ?_⟩)
  · exact h'.seen.observed
  · exact h'.seen.acquired
  · refine ⟨⟨journal.attempt, journal.oldHouseholdKey, planner.libraryId journal.newHouseholdKey, locks⟩, ?_⟩
    rw [hhistory]
    exact List.mem_cons_self

end

omit h hstored in
theorem adoptionRequest_some {request : AdoptionRequest} (h : adoptionRequest journal locks = some request) :
    request.attempt = journal.attempt := by
  unfold adoptionRequest at h
  split at h
  · split at h
    · cases h
      rfl
    · cases h
  · cases h

omit hstored in
theorem performAdopt_keeps (hlocks : journal.locks = some locks)
    (hpending : journal.pending = some .adoptSuccessor) :
    Works planner.toCore (performAdopt journal locks) w := by
  obtain ⟨hphase, hretired⟩ := validPhase_pending h.ok.record.phase hpending
  unfold performAdopt
  split
  · exact keeps_throws _ h
  rename_i request hrequest
  have hok := h.ok.rephase hlocks journal.phase (some .verifyAdoption) (by rw [hphase]; exact hretired)
  refine keeps_persisting (h.rephase hok) fun w' hstored' h' => ?_
  refine keeps_ask h' (by simp) (by simp) ⟨_, hstored', adoptionRequest_some hrequest, hretired⟩
    fun _ w'' _ _ h'' => ?_
  exact h''.done ()

theorem performVerifyAdoption_keeps (hlocks : journal.locks = some locks)
    (hpending : journal.pending = some .verifyAdoption) :
    Works planner.toCore (performVerifyAdoption journal locks) w := by
  obtain ⟨hphase, hretired⟩ := validPhase_pending h.ok.record.phase hpending
  unfold performVerifyAdoption
  split
  · exact keeps_throws _ h
  rename_i request hrequest
  refine keeps_ask h (by simp) (by simp) ⟨journal, hstored, adoptionRequest_some hrequest, hretired⟩
    fun adopted w' hs hhistory h' => ?_
  cases adopted with
  | false =>
    have hok := h.ok.rephase hlocks journal.phase (some .adoptSuccessor) (by rw [hphase]; exact hretired)
    exact keeps_persist (h'.rephase hok)
  | true =>
    have hcommitted := (allRetired_iff.mp hretired).1
    have hstored' := hs.trans hstored
    refine ⟨⟨journal, hstored', rfl, ?_⟩, fun answer w'' hw => ?_⟩
    · rw [hhistory]
      exact .adopted request locks w.history hrequest
    · -- erased or not, the journal in hand is complete
      have hrecorded'' := h'.recorded.cleared hw
      refine ⟨hrecorded'', ?_⟩
      cases answer with
      | ok => exact ⟨hrecorded'', .inr ⟨rfl, hcommitted⟩, nofun⟩
      | error =>
        refine ⟨hrecorded'', .inr ⟨rfl, hcommitted⟩, fun failure' hfailure' _ => ?_⟩
        cases hfailure'
        exact ⟨_, _, hw.history⟩

theorem perform_keeps (hlocks : journal.locks = some locks) {effect : EffectIntent}
    (hpending : journal.pending = some effect) :
    Works planner.toCore (perform planner.toCore journal locks effect) w := by
  cases effect with
  | moveProfile => exact performMove_keeps h hstored hlocks hpending
  | publishHousehold => exact performPublish_keeps h hlocks hpending
  | verifyHousehold => exact performVerify_keeps h hstored hlocks hpending
  | retireProfile => exact performRetireProfile_keeps h hstored hlocks hpending
  | retireHousehold => exact performRetireHousehold_keeps h hstored hlocks hpending
  | adoptSuccessor => exact performAdopt_keeps h hlocks hpending
  | verifyAdoption => exact performVerifyAdoption_keeps h hstored hlocks hpending

omit h hstored in
theorem successorDirectory_error (h : successorDirectory core journal = .error failure) :
    ¬ failure.Ends := by
  have hfold : ∀ (profiles : List Evidence) (candidate : Directory),
      profiles.foldlM (rotateVerified core journal.resetStamp) candidate = .error failure → ¬ failure.Ends := by
    intro profiles
    induction profiles with
    | nil =>
      intro candidate h
      cases h
    | cons _ _ ih =>
      intro candidate h
      rw [List.foldlM_cons, rotateVerified] at h
      split at h
      · cases h
        exact id
      split at h
      · cases h
        exact id
      · exact ih _ h
  unfold successorDirectory at h
  cases hcandidate : journal.profiles.foldlM (rotateVerified core journal.resetStamp) journal.directory with
  | error =>
    rw [hcandidate] at h
    cases h
    exact hfold _ _ hcandidate
  | ok =>
    rw [hcandidate] at h
    simp only [Bind.bind, Except.bind] at h
    split at h
    · cases h
      exact id
    split at h
    · cases h
      exact id
    · cases h

omit h hstored in
/-- A decision that cannot be planned does not end the attempt. -/
theorem plan_error {decision : ResetEffect} (h : plan core journal decision = .error failure) :
    ¬ failure.Ends := by
  cases decision with
  | moveLiveProfiles | retireOldLibraries =>
    simp only [plan] at h
    split at h
    · cases h
      exact id
    split at h <;> cases h
    exact id
  | commitSuccessorHousehold =>
    simp only [plan] at h
    split at h
    · cases h
      exact id
    unfold intendedDirectory at h
    split at h
    · cases h
    cases hdirectory : successorDirectory core journal with
    | ok =>
      rw [hdirectory] at h
      cases h
    | error =>
      rw [hdirectory] at h
      cases h
      exact successorDirectory_error hdirectory
  | complete =>
    simp only [plan] at h
    split at h <;> cases h
    exact id

omit h hstored in
theorem reporting_keeps {work : Executing (Outcome Unit)} (h : Works core work w) :
    Works core (reporting work) w := by
  refine keeps_bind (h.mono fun outcome w' hleft => ?_)
  refine ⟨hleft.recorded, hleft.stored, fun failure hfailure hcause => hleft.cause failure ?_ hcause⟩
  cases hresult : outcome.1 with
  | ok _ =>
    rw [hresult] at hfailure
    cases hfailure
  | error =>
    rw [hresult] at hfailure
    cases hfailure
    rfl

/-- **One call of `drive`,** from the journal that is stored. -/
theorem drive_keeps : Works planner.toCore (drive planner.toCore journal) w := by
  unfold drive
  split
  · exact h.done _
  split
  · rename_i hlocks
    exact reporting_keeps (acquire_keeps h hlocks)
  · rename_i locks effect hlocks hpending
    exact reporting_keeps (perform_keeps h hstored hlocks hpending)
  · rename_i locks hlocks hpending
    obtain ⟨decision, hnext, hallows⟩ := planner.names journal h.ok.attempt (validRecord_iff.mpr h.ok.record)
    rw [hnext]
    dsimp only
    split
    · rename_i failure hplan
      exact h.throws (plan_error hplan)
    · rename_i journal' hplan
      have hplanned := plan_ok h.ok hlocks hallows hplan
      refine reporting_keeps (keeps_persist (h.changed hplanned.ok ⟨hplanned.prepared, ?_, ?_, ?_⟩ ?_))
      · intro locks' hlocks'
        rw [hplanned.locks, hlocks']
      · intro hverified
        rw [allVerified, hplanned.profiles]
        exact hverified
      · intro hcommitted
        rw [hplanned.committed, hcommitted]
      · exact h.seen.carry hplanned.prepared (fun _ => hplanned.successor) hplanned.committed hplanned.head
          hplanned.locks hplanned.retired

end Effects

/-! ## The whole program -/

/-- Erasing the journal of an attempt that is over. -/
theorem discard_keeps (hrecorded : Recorded core w) {stored : Journal} (hstored : w.stored = some stored)
    (hattempt : stored.attempt = journal.attempt) (hover : Over stored w.history) :
    Settles core (discard journal) w := by
  refine ⟨⟨stored, hstored, hattempt, hover⟩, fun answer w' hw => ?_⟩
  have hrecorded' := hrecorded.cleared hw
  exact ⟨hrecorded', hrecorded'⟩

theorem guarded_keeps {work : Executing (Outcome Status)}
    (h : Works core work w) : Settles core (guarded core work) w := by
  refine keeps_bind (h.mono fun outcome w' hleft => ?_)
  obtain ⟨result, journal⟩ := outcome
  cases result with
  | ok => exact hleft.recorded
  | error failure =>
    cases failure with
    | reset => exact hleft.recorded
    | other => exact hleft.recorded
    | rolledBack =>
      dsimp only
      split
      · rename_i hphase
        obtain ⟨c, rest, hhistory⟩ := hleft.cause .rolledBack rfl trivial
        -- a journal in hand that is not complete is still stored
        rcases hleft.stored with ⟨stored, hstored, hcontinues⟩ | ⟨hcomplete, -⟩
        · refine discard_keeps hleft.recorded hstored (attempt_of_prepared hcontinues.prepared).1.symm ?_
          rw [hhistory]
          exact .rolledBack c rest
        · exact absurd hcomplete hphase
      · exact hleft.recorded
    | refused reason =>
      dsimp only
      split
      · exact hleft.recorded
      rename_i hcommitted
      rw [Bool.not_eq_true] at hcommitted
      obtain ⟨c, rest, hhistory⟩ := hleft.cause (.refused reason) rfl trivial
      rcases hleft.stored with ⟨stored, hstored, hcontinues⟩ | ⟨-, hcommitted'⟩
      · obtain ⟨hattempt, -, hold⟩ := attempt_of_prepared hcontinues.prepared
        -- nothing recorded is lost, so the journal that is stored records no commit either
        have hstill : stored.householdCommitted = false := by
          by_contra hc
          rw [Bool.not_eq_false] at hc
          rw [hcontinues.committed hc] at hcommitted
          cases hcommitted
        refine ⟨⟨stored, hstored, hstill, by rw [hattempt, hold]⟩, fun answer w'' hw => ?_⟩
        have hkept := hw.stored (by simp) (by simp)
        have hrecorded'' := hleft.recorded.answered hw hkept
        refine ⟨hrecorded'', ?_⟩
        cases answer with
        | error => exact hrecorded''
        | ok result =>
          cases result with
          | committed => exact hrecorded''
          | aborted =>
            refine discard_keeps hrecorded'' (hkept.trans hstored) hattempt.symm ?_
            rw [hw.history, hhistory]
            exact .aborted _ c reason rest hattempt hstill
      · rw [show journal.householdCommitted = true from hcommitted'] at hcommitted
        cases hcommitted

/-- A new journal has nothing recorded. -/
theorem newJournal_new {input : StartInput} (h : newJournal core input = .ok journal) :
    journal.oldHouseholdRetired = false ∧ journal.locks = none ∧ journal.phase = .prepared ∧
      journal.householdCommitted = false := by
  simp only [newJournal, Bind.bind, Except.bind] at h
  repeat' split at h
  all_goals try cases h
  exact ⟨rfl, rfl, rfl, rfl⟩

/-- A journal without locks that passes its check. -/
theorem journalOK_of_validate (hvalid : validate core journal = true)
    (hnew : journal.locks = none ∧ journal.phase = .prepared ∧ journal.householdCommitted = false) :
    JournalOK core journal := by
  simp only [validate, Bool.and_eq_true] at hvalid
  obtain ⟨⟨hattempt, hrecord⟩, -⟩ := hvalid
  exact ⟨hattempt, validRecord_iff.mp hrecord, fun _ => hnew.2⟩

theorem start_keeps (planner : Planner) (input : StartInput) (hrecorded : Recorded planner.toCore w) :
    Settles planner.toCore (start planner.toCore input) w := by
  refine ⟨trivial, fun answer w' hw => ?_⟩
  have hkept := hw.stored (by simp) (by simp)
  have hrecorded' := hrecorded.answered hw hkept
  refine ⟨hrecorded', ?_⟩
  match answer, hw with
  | .error failure, _ => exact hrecorded'
  | .ok (some journal), _ => exact hrecorded'
  | .ok none, hw =>
    have hnone := hw.load rfl
    split
    · exact hrecorded'
    rename_i journal hnew
    split
    · exact hrecorded'
    rename_i hvalid
    obtain ⟨hretired, hfresh⟩ := newJournal_new hnew
    have hok : JournalOK planner.toCore journal := journalOK_of_validate (not_not.mp hvalid) hfresh
    refine ⟨⟨hok.validate, fun stored hs => ?_⟩, fun answer' w'' hw' => ?_⟩
    · rw [hnone] at hs
      cases hs
    · have hrecorded'' : Recorded planner.toCore w'' := by
        intro stored hs
        rcases hw'.persist with hstored | ⟨hstored, -⟩
        · rw [hstored] at hs
          cases hs
          refine ⟨hok, fun hc => ?_, fun locks hl => ?_, fun hr => ?_⟩
          · rw [hfresh.2.2] at hc
            cases hc
          · rw [hfresh.1] at hl
            cases hl
          · rw [hretired] at hr
            cases hr
        · rw [hstored, hnone] at hs
          cases hs
      refine ⟨hrecorded'', ?_⟩
      match answer', hw' with
      | .error failure, _ => exact hrecorded''
      | .ok (), hw' =>
        rcases hw'.persist with hstored | ⟨-, failure, hfailure⟩
        · exact guarded_keeps (drive_keeps (.of_stored hrecorded'' hstored) hstored)
        · cases hfailure

/-- A program that begins from the journal that is stored. -/
theorem loaded_keeps {next : Journal → Executing (Except Failure (Option Status))} (hrecorded : Recorded core w)
    (hnext : ∀ journal w', Recorded core w' → w'.stored = some journal →
      Settles core (next journal) w') : Settles core (loaded core next) w := by
  refine ⟨trivial, fun answer w' hw => ?_⟩
  have hrecorded' := hrecorded.answered hw (hw.stored (by simp) (by simp))
  refine ⟨hrecorded', ?_⟩
  match answer, hw with
  | .error failure, _ => exact hrecorded'
  | .ok none, _ => exact hrecorded'
  | .ok (some journal), hw =>
    dsimp only
    split
    · exact hrecorded'
    · exact hnext journal w' hrecorded' (hw.load rfl)

theorem resume_keeps (planner : Planner) (hrecorded : Recorded planner.toCore w) :
    Settles planner.toCore (resume planner.toCore) w := by
  refine loaded_keeps hrecorded fun journal w' hrecorded' hstored => ?_
  exact guarded_keeps (drive_keeps (.of_stored hrecorded' hstored) hstored)

theorem status_keeps (hrecorded : Recorded core w) : Settles core (status core) w := by
  exact loaded_keeps hrecorded fun journal w' hrecorded' _ => hrecorded'

end DenEdge.Executor
