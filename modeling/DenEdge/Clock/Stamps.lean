import DenEdge.Clock.Model

/-!
# A browser's stamps are distinct and ordered

Every operation makes one change of the record, or none. A change leaves the device, never lowers the last stamp,
and answers stamps that are at most the new last one: so an issued stamp, which is above the last one before it,
is above every stamp of before. A reserved stamp may be far below; it is told from the other reserved ones by its
counter, and from an issued one by nothing but its time.
-/

namespace DenEdge.Clock

open DenEdge.Client (Stamp ZERO_STAMP)

/-! ## The order of stamps -/

/-- Stamps in their order: by time, then by counter, then by device. -/
def rank (s : Stamp) : ℕ ×ₗ (ℕ ×ₗ List ℕ) := toLex (s.1, toLex (s.2.1, units s.2.2))

theorem later_iff {a b : Stamp} : later a b = true ↔ rank b < rank a := by
  unfold later rank
  rw [Prod.Lex.toLex_lt_toLex]
  simp only [Bool.or_eq_true, Bool.and_eq_true, decide_eq_true_eq]
  rw [Prod.Lex.toLex_lt_toLex]

theorem later_irrefl (a : Stamp) : later a a = false := by
  rw [Bool.eq_false_iff]
  intro h
  exact lt_irrefl _ (later_iff.mp h)

theorem rank_le_later (stamp last : Stamp) : rank last ≤ rank (if later stamp last then stamp else last) ∧
    rank stamp ≤ rank (if later stamp last then stamp else last) := by
  split_ifs with h
  · exact ⟨(later_iff.mp h).le, le_rfl⟩
  · exact ⟨le_rfl, not_lt.mp fun hlt => h (later_iff.mpr hlt)⟩

theorem le_newest (stamps : List Stamp) (last : Stamp) :
    rank last ≤ rank (newest stamps last) ∧ ∀ x ∈ stamps, rank x ≤ rank (newest stamps last) := by
  induction stamps generalizing last with
  | nil => exact ⟨le_rfl, fun x hx => nomatch hx⟩
  | cons stamp _ ih =>
    obtain ⟨hlast, hstamps⟩ := ih (if later stamp last then stamp else last)
    obtain ⟨hle, hstamp⟩ := rank_le_later stamp last
    exact ⟨hle.trans hlast, List.forall_mem_cons.mpr ⟨hstamp.trans hlast, hstamps⟩⟩

theorem newest_mem (stamps : List Stamp) (last : Stamp) :
    newest stamps last = last ∨ newest stamps last ∈ stamps := by
  induction stamps generalizing last with
  | nil => exact .inl rfl
  | cons stamp stamps ih =>
    have hcases : newest (stamp :: stamps) last = newest stamps (if later stamp last then stamp else last) := rfl
    rw [hcases]
    rcases ih (if later stamp last then stamp else last) with heq | hmem
    · rw [heq]
      split_ifs
      · exact .inr List.mem_cons_self
      · exact .inl rfl
    · exact .inr (List.mem_cons_of_mem _ hmem)

/-! ## Reserved stamps -/

theorem mem_reserved {c : StoredClock} {milliseconds : List ℕ} {x : Stamp} (hx : x ∈ reserved c milliseconds) :
    x.1 ∈ milliseconds ∧ c.historicalCounter < x.2.1 ∧ x.2.1 ≤ c.historicalCounter + milliseconds.length := by
  obtain ⟨index, hindex, rfl⟩ := List.mem_mapIdx.mp hx
  refine ⟨List.getElem_mem hindex, ?_, ?_⟩
  · show c.historicalCounter < c.historicalCounter + index + 1
    omega
  · show c.historicalCounter + index + 1 ≤ _
    omega

theorem reserved_nodup (c : StoredClock) (milliseconds : List ℕ) : (reserved c milliseconds).Nodup := by
  have hcounter : ∀ i (h : i < (reserved c milliseconds).length),
      (reserved c milliseconds)[i].2.1 = c.historicalCounter + i + 1 := by
    intro i h
    simp only [reserved, List.getElem_mapIdx]
  rw [List.nodup_iff_injective_getElem]
  intro a b hab
  have hsame : (reserved c milliseconds)[a.1].2.1 = (reserved c milliseconds)[b.1].2.1 :=
    congrArg (fun x : Stamp => x.2.1) hab
  rw [hcounter, hcounter] at hsame
  exact Fin.ext (by omega)

/-! ## One change -/

variable {issue : Issue} {c next : StoredClock} {op : Op} {answer : List Stamp}

/-- A change keeps the device, never lowers the last stamp, and answers nothing above it. -/
structure Changes (c next : StoredClock) (op : Op) (answer : List Stamp) : Prop where
  device : next.device = c.device
  last : rank c.last ≤ rank next.last
  counter : c.historicalCounter ≤ next.historicalCounter
  issued : ∀ now, op = .issue now → ∃ x, answer = [x] ∧ rank c.last < rank x ∧ rank x ≤ rank next.last
  historical : ∀ milliseconds, op = .historical milliseconds → answer.Nodup ∧ ∀ x ∈ answer, x.1 ∈ milliseconds ∧
    c.historicalCounter < x.2.1 ∧ x.2.1 ≤ next.historicalCounter ∧ rank x ≤ rank next.last
  seen : ∀ stamp, op = .see stamp → rank stamp ≤ rank next.last

theorem change_changes (hissue : Issues issue) (h : op.change issue c = some (next, answer)) :
    Changes c next op answer := by
  cases op with
  | issue now =>
    obtain ⟨stamp, hstamp, heq⟩ := Option.map_eq_some_iff.mp h
    cases heq
    obtain ⟨-, hlater, -⟩ := hissue _ _ _ _ hstamp
    have hlt := later_iff.mp hlater
    refine ⟨rfl, hlt.le, le_rfl, fun _ _ => ⟨_, rfl, hlt, le_rfl⟩, ?_, ?_⟩ <;> intro _ heq <;> cases heq
  | historical milliseconds =>
    simp only [Op.change] at h
    split_ifs at h
    cases h
    obtain ⟨hlast, hstamps⟩ := le_newest (reserved c milliseconds) c.last
    refine ⟨rfl, hlast, Nat.le_add_right _ _, fun _ heq => (nomatch heq), ?_, fun _ heq => (nomatch heq)⟩
    intro milliseconds' heq
    obtain rfl := Op.historical.inj heq
    refine ⟨reserved_nodup c milliseconds, fun x hx => ?_⟩
    obtain ⟨hmem, hlt, hle⟩ := mem_reserved hx
    refine ⟨hmem, hlt, ?_, hstamps x hx⟩
    show x.2.1 ≤ c.historicalCounter + (reserved c milliseconds).length
    rw [reserved, List.length_mapIdx]
    exact hle
  | see stamp =>
    cases h
    obtain ⟨hle, hstamp⟩ := rank_le_later stamp c.last
    refine ⟨?_, ?_, ?_, fun _ heq => (nomatch heq), fun _ heq => (nomatch heq), fun stamp' heq => ?_⟩
    · split_ifs <;> rfl
    · rw [apply_ite StoredClock.last]
      exact hle
    · split_ifs <;> exact le_rfl
    · obtain rfl := Op.see.inj heq
      rw [apply_ite StoredClock.last]
      exact hstamp
  | current =>
    cases h
    exact ⟨rfl, le_rfl, le_rfl, fun _ heq => (nomatch heq), fun _ heq => (nomatch heq), fun _ heq =>
      (nomatch heq)⟩

theorem decode_eq_some : decode c = some next ↔
    next = c ∧ validDevice c.device = true ∧ validStamp c.last = true ∧
      c.historicalCounter ≤ MAX_SAFE_INTEGER := by
  unfold decode
  simp only [Option.ite_none_right_eq_some, Bool.and_eq_true, decide_eq_true_eq, Option.some.injEq]
  constructor
  · rintro ⟨⟨⟨hdevice, hlast⟩, hcounter⟩, rfl⟩
    exact ⟨rfl, hdevice, hlast, hcounter⟩
  · rintro ⟨rfl, hdevice, hlast, hcounter⟩
    exact ⟨⟨⟨hdevice, hlast⟩, hcounter⟩, rfl⟩

/-- A record that can be read can be read after a change. -/
theorem change_decodes (hissue : Issues issue) (hc : decode c = some c) (hvalid : op.valid = true)
    (h : op.change issue c = some (next, answer)) : decode next = some next := by
  obtain ⟨-, hdevice, hlast, hcounter⟩ := decode_eq_some.mp hc
  rw [decode_eq_some]
  cases op with
  | issue now =>
    obtain ⟨stamp, hstamp, heq⟩ := Option.map_eq_some_iff.mp h
    cases heq
    exact ⟨rfl, hdevice, (hissue _ _ _ _ hstamp).2.2.2, hcounter⟩
  | historical milliseconds =>
    simp only [Op.change] at h
    split_ifs at h with hroom
    cases h
    refine ⟨rfl, hdevice, ?_, ?_⟩
    · rcases newest_mem (reserved c milliseconds) c.last with heq | hmem
      · show validStamp (newest _ _) = true
        rw [heq]
        exact hlast
      · obtain ⟨htime, -, hle⟩ := mem_reserved hmem
        have hsafe' : _ ≤ MAX_SAFE_INTEGER := of_decide_eq_true (List.all_eq_true.mp hvalid _ htime)
        show validStamp (newest _ _) = true
        unfold validStamp
        rw [decide_eq_true hsafe', decide_eq_true (by omega)]
        rfl
    · show c.historicalCounter + (reserved c milliseconds).length ≤ _
      rw [reserved, List.length_mapIdx]
      omega
  | see =>
    cases h
    split_ifs
    · exact ⟨rfl, hdevice, hvalid, hcounter⟩
    · exact ⟨rfl, hdevice, hlast, hcounter⟩
  | current =>
    cases h
    exact ⟨rfl, hdevice, hlast, hcounter⟩

/-! ## One operation -/

/-- An operation leaves the record, or changes it; it answers only where it did. -/
def Leaves (issue : Issue) (op : Op) (c : StoredClock) (vault : Vault) : Prop :=
  vault.stored = some c ∨ ∃ next answer, op.change issue c = some (next, answer) ∧ vault.stored = some next

def Answers (issue : Issue) (op : Op) (c : StoredClock) (answer : List Stamp) (vault : Vault) : Prop :=
  ∃ next, op.change issue c = some (next, answer) ∧ vault.stored = some next

theorem stored_set (vault : Vault) (c : StoredClock) : Vault.stored (Assoc.set vault () c) = some c :=
  (Assoc.get_set _ _ _ _).trans (if_pos rfl)

/-- What an operation leaves, and what it has answered if it has. -/
def Done (issue : Issue) (op : Op) (c : StoredClock) (ran : Ran) : Prop :=
  Leaves issue op c ran.1 ∧ ∀ state answer, ran.2 = some (state, some answer) → Answers issue op c answer ran.1

variable {vault : Vault}

section

variable (hstored : vault.stored = some c) (hc : decode c = some c) (state : StoredClock)
include hstored hc

theorem atomically_done (fate : Storage.Fate) :
    Done issue op c (atomically issue op state vault fate) := by
  have hsame : ∀ state', Done issue op c (vault, some (state', none)) := fun state' =>
    ⟨.inl hstored, fun _ _ heq => (nomatch heq)⟩
  unfold atomically
  simp only [hstored, Option.bind_some, hc, Option.getD_some, Option.isSome_some, Bool.true_and,
    decide_eq_true_eq]
  cases hchange : op.change issue c with
  | none => exact hsame state
  | some changed =>
    obtain ⟨next, answer⟩ := changed
    have hupdated : Vault.stored (if next = c then vault else Assoc.set vault () next) = some next := by
      split_ifs with heq
      · rw [hstored, heq]
      · exact stored_set vault next
    cases fate with
    | ok =>
      dsimp only
      split
      next durable _ =>
        refine ⟨.inr ⟨next, answer, hchange, hupdated⟩, fun state' answer' heq => ?_⟩
        obtain ⟨-, hanswer⟩ := Prod.mk.inj (Option.some.inj heq)
        rw [← Option.some.inj hanswer]
        exact ⟨next, hchange, hupdated⟩
      next => exact ⟨.inr ⟨next, answer, hchange, hupdated⟩, fun _ _ heq => (nomatch heq)⟩
    | err e => exact hsame state
    | dies took =>
      refine ⟨?_, fun _ _ heq => (nomatch heq)⟩
      cases took with
      | false => exact .inl hstored
      | true => exact .inr ⟨next, answer, hchange, hupdated⟩

/-- With the lock, whatever fails. -/
theorem locked_keeps (issue : Issue) (op : Op) :
    (locked issue op state).Keeps (Storage.Ends Storage.May.any) Storage.anyCall (Leaves issue op c)
      (fun a f => Leaves issue op c f ∧ ∀ answer, a.2 = some answer → Answers issue op c answer f) vault := by
  have hsame : ∀ state' : StoredClock, Leaves issue op c vault ∧
      ∀ answer, (state', (none : Option (List Stamp))).2 = some answer → Answers issue op c answer vault :=
    fun _ => ⟨.inl hstored, fun _ heq => (nomatch heq)⟩
  refine Storage.keeps_get trivial (.inl hstored) (fun _ => ?_) fun _ _ => hsame state
  have hfound : (Assoc.get vault ()).bind decode = some c := by
    rw [show Assoc.get vault () = some c from hstored]
    exact hc
  dsimp only
  rw [hfound]
  dsimp only
  unfold lockedChange
  cases hchange : op.change issue c with
  | none => exact hsame c
  | some changed =>
    obtain ⟨next, answer⟩ := changed
    dsimp only
    have hdone : ∀ f : Vault, f.stored = some next → Leaves issue op c f ∧
        ∀ answer', (some answer) = some answer' → Answers issue op c answer' f := by
      intro f hf
      refine ⟨.inr ⟨next, answer, hchange, hf⟩, fun answer' heq => ?_⟩
      rw [← Option.some.inj heq]
      exact ⟨next, hchange, hf⟩
    split_ifs with heq
    · rw [heq] at hdone
      exact hdone vault hstored
    · refine Storage.keeps_put trivial (.inl hstored) (fun _ => ?_) fun _ _ => hsame c
      exact ⟨(hdone _ (stored_set vault next)).1, hdone _ (stored_set vault next)⟩

theorem perform_done (issue : Issue) (op : Op) (mode : Mode) (fates : List Storage.Fate) :
    Done issue op c (perform mode issue op state vault fates) := by
  unfold perform
  split_ifs with hvalid hempty
  · exact ⟨.inl hstored, fun _ _ heq => (nomatch heq)⟩
  · refine ⟨.inl hstored, fun state' answer heq => ?_⟩
    obtain ⟨-, hanswer⟩ := Prod.mk.inj (Option.some.inj heq)
    rw [← Option.some.inj hanswer, hempty]
    have hcounter := (decode_eq_some.mp hc).2.2.2
    refine ⟨c, ?_, hstored⟩
    simp only [Op.change, List.length_nil, Nat.add_zero, if_neg (not_lt.mpr hcounter)]
    rfl
  · cases mode with
    | atomic => exact atomically_done hstored hc state _
    | locked =>
      have hkeeps := locked_keeps hstored hc state issue op
      cases hrun : Storage.run (Storage.scripted fates) (locked issue op state) vault with
      | mk _ result =>
        cases result with
        | none =>
          exact ⟨Storage.run_dies (Storage.within_any _) hkeeps (.inl hstored) hrun, fun _ _ heq => (nomatch heq)⟩
        | some a =>
          obtain ⟨hleaves, hanswers⟩ := Storage.run_ends (Storage.within_any _) hkeeps hrun
          refine ⟨hleaves, fun state' answer heq => hanswers answer ?_⟩
          rw [Option.some.inj heq]

end

/-! ## Opening -/

/-- The record that is there stays; where none is, one may be seeded. -/
def Opens (vault vault' : Vault) (seeded : Option StoredClock) : Prop :=
  vault'.stored = vault.stored ∨ (vault.stored = none ∧ ∃ c, seeded = some c ∧ vault'.stored = some c)

/-- What an opening leaves; an instance is opened only with a record stored. -/
def Opened (vault : Vault) (seeded : Option StoredClock) (ran : Vault × Option (Option StoredClock)) : Prop :=
  Opens vault ran.1 seeded ∧ ∀ state, ran.2 = some (some state) → ran.1.stored.isSome

section

variable (hdecodes : ∀ c, vault.stored = some c → decode c = some c)
include hdecodes

theorem openAtomic_opened (seeded : Option StoredClock)
    (fate : Storage.Fate) : Opened vault seeded (openAtomic seeded vault fate) := by
  have hthrows : Opened vault seeded (vault, some none) := ⟨.inl rfl, nofun⟩
  have hok : ∀ updated : Vault, Opens vault updated seeded →
      Opened vault seeded (updated, some (updated.stored.bind decode)) := by
    intro updated hopens
    refine ⟨hopens, fun state heq => ?_⟩
    obtain ⟨found, hfound, -⟩ := Option.bind_eq_some_iff.mp (Option.some.inj heq)
    exact Option.isSome_iff_exists.mpr ⟨found, hfound⟩
  have hdies : ∀ (updated : Vault) (took : Bool), Opens vault updated seeded →
      Opened vault seeded (if took then updated else vault, none) := by
    intro updated took hopens
    refine ⟨?_, nofun⟩
    cases took with
    | false => exact .inl rfl
    | true => exact hopens
  unfold openAtomic
  cases hfound : vault.stored.bind decode with
  | some =>
    cases fate with
    | ok => exact hok vault (.inl rfl)
    | err => exact hthrows
    | dies took => exact hdies vault took (.inl rfl)
  | none =>
    cases seeded with
    | none => exact hthrows
    | some c' =>
      have hopens : Opens vault (Assoc.set vault () c') (some c') := by
        refine .inr ⟨?_, c', rfl, stored_set vault c'⟩
        cases hstored : vault.stored with
        | none => rfl
        | some c =>
          rw [hstored, Option.bind_some, hdecodes c hstored] at hfound
          cases hfound
      cases fate with
      | ok => exact hok _ hopens
      | err => exact hthrows
      | dies took => exact hdies _ took hopens

theorem openLocked_keeps (seeded : Option StoredClock) :
    (openLocked seeded).Keeps (Storage.Ends Storage.May.any) Storage.anyCall (fun f => Opens vault f seeded)
      (fun a (f : Vault) => Opens vault f seeded ∧ ∀ state, a = some state → f.stored.isSome) vault := by
  have hthrows : Opens vault vault seeded ∧ ∀ state, (none : Option StoredClock) = some state →
      vault.stored.isSome :=
    ⟨.inl rfl, fun _ heq => (nomatch heq)⟩
  refine Storage.keeps_get trivial (.inl rfl) (fun _ => ?_) fun _ _ => hthrows
  cases hstored : vault.stored with
  | some c =>
    have hfound : (Assoc.get vault ()).bind decode = some c := by
      rw [show Assoc.get vault () = some c from hstored]
      exact hdecodes c hstored
    dsimp only
    rw [hfound]
    exact ⟨.inl rfl, fun _ _ => by rw [hstored]; rfl⟩
  | none =>
    have hfound : (Assoc.get vault ()).bind decode = none := by
      rw [show Assoc.get vault () = none from hstored]
      rfl
    dsimp only
    rw [hfound]
    cases seeded with
    | none => exact hthrows
    | some c =>
      have hopens : Opens vault (Assoc.set vault () c) (some c) := .inr ⟨hstored, c, rfl, stored_set vault c⟩
      refine Storage.keeps_put trivial (.inl rfl) (fun _ => ?_) fun _ _ => hthrows
      exact ⟨hopens, hopens, fun _ _ => by rw [stored_set]; rfl⟩

theorem openClockStore_opened (mode : Mode) (seeded : Option StoredClock) (fates : List Storage.Fate) :
    Opened vault seeded (openClockStore mode seeded vault fates) := by
  cases mode with
  | atomic => exact openAtomic_opened hdecodes seeded _
  | locked =>
    have hkeeps := openLocked_keeps hdecodes seeded
    unfold openClockStore
    cases hrun : Storage.run (Storage.scripted fates) (openLocked seeded) vault with
    | mk _ result =>
      cases result with
      | none => exact ⟨Storage.run_dies (Storage.within_any _) hkeeps (.inl rfl) hrun, fun _ heq => (nomatch heq)⟩
      | some a =>
        obtain ⟨hopens, hsome⟩ := Storage.run_ends (Storage.within_any _) hkeeps hrun
        exact ⟨hopens, fun state heq => hsome state (Option.some.inj heq)⟩

end

theorem seed_decodes {legacyDevice : Option String} {created : String} {legacyLast : Option Stamp}
    (h : seed legacyDevice created legacyLast = some c) : decode c = some c := by
  unfold seed at h
  dsimp only at h
  split_ifs at h with hdevice
  rw [← Option.some.inj h, decode_eq_some]
  refine ⟨rfl, hdevice, ?_, Nat.zero_le _⟩
  show validStamp ((legacyLast.filter validStamp).getD ZERO_STAMP) = true
  cases hlast : legacyLast.filter validStamp with
  | none => decide
  | some => exact (Option.filter_eq_some_iff.mp hlast).2

/-! ## The invariant -/

/-- The stamps that were returned or given. -/
def State.logs (s : State) : List Stamp × List Stamp × List Stamp := (s.issued, s.historical, s.seen)

/-- The record can be read, nothing that was returned is above its last stamp, and what was returned is distinct.
-/
structure Good (s : State) : Prop where
  decodes : ∀ c, s.vault.stored = some c → decode c = some c
  opened : ∀ state, some state ∈ s.instances → s.vault.stored.isSome
  below : ∀ x, x ∈ s.issued ∨ x ∈ s.historical ∨ x ∈ s.seen → ∃ c, s.vault.stored = some c ∧ rank x ≤ rank c.last
  counted : ∀ x ∈ s.historical, ∃ c, s.vault.stored = some c ∧ x.2.1 ≤ c.historicalCounter
  distinct : (s.issued ++ s.historical).Nodup

theorem good_init : Good init := by
  refine ⟨?_, ?_, ?_, ?_, ?_⟩ <;> simp [init, Vault.stored]

variable {s s' : State} {e : Event}

/-- What one step does to the record and to what was returned. -/
inductive Move (issue : Issue) (s : State) : Event → State → Prop
  | same {e : Event} {s' : State} (hstored : s'.vault.stored = s.vault.stored) (hlogs : s'.logs = s.logs) :
    Move issue s e s'
  | seeded {e : Event} {s' : State} {c : StoredClock} (hnone : s.vault.stored = none) (hc : decode c = some c)
      (hstored : s'.vault.stored = some c) (hlogs : s'.logs = s.logs) : Move issue s e s'
  | changed {i : ℕ} {op : Op} {fates : List Storage.Fate} {s' : State} {c next : StoredClock}
      {answer : List Stamp}
      (hvalid : op.valid = true) (hstored : s.vault.stored = some c)
      (hchange : op.change issue c = some (next, answer))
      (hnext : s'.vault.stored = some next) (hlogs : s'.logs = s.logs ∨ s'.logs = (s.returned op answer).logs) :
      Move issue s (.operation i op fates) s'

theorem step_move (h : Good s) (mode : Mode) (issue : Issue) (e : Event) :
    Move issue s e (step mode issue s e) := by
  cases e with
  | opening legacyDevice created legacyLast fates =>
    obtain ⟨hopens, -⟩ := openClockStore_opened h.decodes mode (seed legacyDevice created legacyLast) fates
    have hmove : ∀ s' : State, s'.logs = s.logs → Opens s.vault s'.vault (seed legacyDevice created legacyLast) →
        Move issue s (.opening legacyDevice created legacyLast fates) s' := by
      intro s' hlogs hopens
      rcases hopens with hsame | ⟨hnone, c, hseed, hstored⟩
      · exact .same hsame hlogs
      · exact .seeded hnone (seed_decodes hseed) hstored hlogs
    dsimp only [step]
    split
    next vault state hopen =>
      rw [hopen] at hopens
      exact hmove _ rfl hopens
    next vault _ hopen =>
      rw [hopen] at hopens
      exact hmove _ rfl hopens
  | operation i op fates =>
    dsimp only [step]
    split
    next state hstate =>
      obtain ⟨c, hc⟩ := Option.isSome_iff_exists.mp (h.opened state (List.mem_of_getElem? hstate))
      obtain ⟨hleaves, hanswers⟩ := perform_done hc (h.decodes c hc) state issue op mode fates
      by_cases hvalid : op.valid = true
      · have hmove : ∀ s' : State, s'.logs = s.logs → Leaves issue op c s'.vault →
            Move issue s (.operation i op fates) s' := by
          intro s' hlogs hleaves
          rcases hleaves with hsame | ⟨next, answer, hchange, hstored⟩
          · exact .same (hsame.trans hc.symm) hlogs
          · exact .changed hvalid hc hchange hstored (.inl hlogs)
        split
        next vault hperform =>
          rw [hperform] at hleaves
          exact hmove _ rfl hleaves
        next vault state' hperform =>
          rw [hperform] at hleaves
          exact hmove _ rfl hleaves
        next vault state' answer hperform =>
          rw [hperform] at hanswers
          obtain ⟨next, hchange, hstored⟩ := hanswers state' answer rfl
          refine .changed hvalid hc hchange ?_ (.inr ?_)
          · cases op <;> exact hstored
          · cases op <;> rfl
      · unfold perform
        rw [if_pos (by simpa using hvalid)]
        exact .same rfl rfl
    · exact .same rfl rfl

/-- A tab has a copy of a record only where one is stored. -/
theorem step_opened (h : Good s) (mode : Mode) (issue : Issue) (e : Event) :
    ∀ state, some state ∈ (step mode issue s e).instances → (step mode issue s e).vault.stored.isSome := by
  intro state hmem
  have hmove := step_move h mode issue e
  have hkept : s.vault.stored.isSome → (step mode issue s e).vault.stored.isSome := by
    intro hsome
    cases hmove with
    | same hstored => rw [hstored]; exact hsome
    | seeded _ _ hstored => rw [hstored]; rfl
    | changed _ _ _ hnext => rw [hnext]; rfl
  cases e with
  | opening legacyDevice created legacyLast fates =>
    obtain ⟨-, hopened⟩ := openClockStore_opened h.decodes mode (seed legacyDevice created legacyLast) fates
    revert hmem hkept
    dsimp only [step]
    split
    next vault state' hopen =>
      intro hmem hkept
      rw [hopen] at hopened
      exact hopened state' rfl
    next =>
      intro hmem hkept
      exact hkept (h.opened state hmem)
  | operation i op fates =>
    refine hkept ?_
    by_cases hinstance : ∃ state', s.instances[i]? = some (some state')
    · obtain ⟨state', hinstance⟩ := hinstance
      exact h.opened state' (List.mem_of_getElem? hinstance)
    · have hsame : step mode issue s (.operation i op fates) = s := by
        dsimp only [step]
        split
        · exact absurd ⟨_, ‹_›⟩ hinstance
        · rfl
      rw [hsame] at hmem
      exact h.opened state hmem

theorem logs_eq (h : s'.logs = s.logs) :
    s'.issued = s.issued ∧ s'.historical = s.historical ∧ s'.seen = s.seen := by
  obtain ⟨hissued, hrest⟩ := Prod.mk.inj h
  obtain ⟨hhistorical, hseen⟩ := Prod.mk.inj hrest
  exact ⟨hissued, hhistorical, hseen⟩

/-- Nothing was returned: the record's last stamp and counter did not go down. -/
theorem Good.quiet (h : Good s) (hlogs : s'.logs = s.logs)
    (hdecodes : ∀ c, s'.vault.stored = some c → decode c = some c)
    (hopened : ∀ state, some state ∈ s'.instances → s'.vault.stored.isSome)
    (hkept : ∀ c, s.vault.stored = some c → ∃ next, s'.vault.stored = some next ∧ rank c.last ≤ rank next.last ∧
      c.historicalCounter ≤ next.historicalCounter) : Good s' := by
  obtain ⟨hissued, hhistorical, hseen⟩ := logs_eq hlogs
  refine ⟨hdecodes, hopened, ?_, ?_, ?_⟩
  · intro x hx
    rw [hissued, hhistorical, hseen] at hx
    obtain ⟨c, hc, hle⟩ := h.below x hx
    obtain ⟨next, hnext, hlast, -⟩ := hkept c hc
    exact ⟨next, hnext, hle.trans hlast⟩
  · intro x hx
    rw [hhistorical] at hx
    obtain ⟨c, hc, hle⟩ := h.counted x hx
    obtain ⟨next, hnext, -, hcounter⟩ := hkept c hc
    exact ⟨next, hnext, hle.trans hcounter⟩
  · rw [hissued, hhistorical]
    exact h.distinct

/-- Everything that was returned before is at most the record's last stamp. -/
theorem Good.le_last (h : Good s) (hc : s.vault.stored = some c) {x : Stamp}
    (hx : x ∈ s.issued ∨ x ∈ s.historical ∨ x ∈ s.seen) : rank x ≤ rank c.last := by
  obtain ⟨c', hc', hle⟩ := h.below x hx
  rw [Option.some.inj (hc.symm.trans hc')]
  exact hle

/-- A change that returned. -/
theorem Good.returned (h : Good s) (hc : s.vault.stored = some c) (hchanges : Changes c next op answer)
    (hclear : ∀ milliseconds, op = .historical milliseconds → ∀ at_ ∈ milliseconds, ∀ x ∈ s.issued, x.1 ≠ at_)
    (hquiet : Good { s with vault := s'.vault, instances := s'.instances }) (hnext : s'.vault.stored = some next)
    (hlogs : s'.logs = (s.returned op answer).logs) : Good s' := by
  obtain ⟨hissued, hhistorical, hseen⟩ := logs_eq hlogs
  cases s'
  dsimp only at hissued hhistorical hseen
  subst hissued hhistorical hseen
  cases op with
  | issue now =>
    obtain ⟨x, rfl, hlt, hle⟩ := hchanges.issued now rfl
    refine { hquiet with below := ?_, distinct := ?_ }
    · rintro y (hy | hy)
      · rcases List.mem_snoc.mp hy with hy | rfl
        · exact hquiet.below y (.inl hy)
        · exact ⟨next, hnext, hle⟩
      · exact hquiet.below y (.inr hy)
    · -- the new stamp is above all that were returned
      have hfresh : x ∉ s.issued ++ s.historical := by
        intro hmem
        have hbelow := h.le_last hc ((List.mem_append.mp hmem).imp_right .inl)
        exact absurd hbelow (not_le.mpr hlt)
      refine List.Perm.nodup ?_ (List.nodup_cons.mpr ⟨hfresh, h.distinct⟩)
      dsimp only [State.returned]
      rw [List.append_assoc]
      exact List.perm_middle.symm
  | historical milliseconds =>
    obtain ⟨hnodup, hanswer⟩ := hchanges.historical milliseconds rfl
    refine { hquiet with below := ?_, counted := ?_, distinct := ?_ }
    · rintro y (hy | hy | hy)
      · exact hquiet.below y (.inl hy)
      · rcases List.mem_append.mp hy with hy | hy
        · exact hquiet.below y (.inr (.inl hy))
        · exact ⟨next, hnext, (hanswer y hy).2.2.2⟩
      · exact hquiet.below y (.inr (.inr hy))
    · exact List.forall_mem_append.mpr ⟨hquiet.counted, fun y hy => ⟨next, hnext, (hanswer y hy).2.2.1⟩⟩
    · dsimp only [State.returned]
      rw [← List.append_assoc, List.nodup_append]
      refine ⟨h.distinct, hnodup, ?_⟩
      rintro x hx y hy rfl
      obtain ⟨htime, hlt, -, -⟩ := hanswer x hy
      rcases List.mem_append.mp hx with hissued' | hhistorical'
      · exact hclear milliseconds rfl x.1 htime x hissued' rfl
      · obtain ⟨c', hc', hle⟩ := h.counted x hhistorical'
        rw [← Option.some.inj (hc.symm.trans hc')] at hle
        omega
  | see stamp =>
    refine { hquiet with below := ?_ }
    rintro y (hy | hy | hy)
    · exact hquiet.below y (.inl hy)
    · exact hquiet.below y (.inr (.inl hy))
    · rcases List.mem_snoc.mp hy with hy | rfl
      · exact hquiet.below y (.inr (.inr hy))
      · exact ⟨next, hnext, hchanges.seen y rfl⟩
  | current => exact { hquiet with }

theorem step_good (h : Good s) (hissue : Issues issue) (mode : Mode) {e : Event} (hclear : Clear s e) :
    Good (step mode issue s e) := by
  have hopened := step_opened h mode issue e
  have hmove := step_move h mode issue e
  generalize step mode issue s e = s' at hopened hmove
  cases hmove with
  | same hstored hlogs =>
    refine h.quiet hlogs ?_ hopened ?_
    · rw [hstored]
      exact h.decodes
    · intro c hc
      exact ⟨c, hstored.trans hc, le_rfl, le_rfl⟩
  | seeded hnone hc hstored hlogs =>
    refine h.quiet hlogs ?_ hopened ?_
    · intro c' hc'
      rw [← Option.some.inj (hstored.symm.trans hc')]
      exact hc
    · intro c' hc'
      cases hnone.symm.trans hc'
  | @changed _ op _ _ c next _ hvalid hstored hchange hnext hlogs =>
    have hchanges := change_changes hissue hchange
    have hdecodes : ∀ c', s'.vault.stored = some c' → decode c' = some c' := by
      intro c' hc'
      rw [← Option.some.inj (hnext.symm.trans hc')]
      exact change_decodes hissue (h.decodes c hstored) hvalid hchange
    have hkept : ∀ c', s.vault.stored = some c' → ∃ next, s'.vault.stored = some next ∧
        rank c'.last ≤ rank next.last ∧ c'.historicalCounter ≤ next.historicalCounter := by
      intro c' hc'
      rw [← Option.some.inj (hstored.symm.trans hc')]
      exact ⟨next, hnext, hchanges.last, hchanges.counter⟩
    rcases hlogs with hsame | hreturned
    · exact h.quiet hsame hdecodes hopened hkept
    · refine h.returned hstored hchanges ?_ (h.quiet rfl hdecodes hopened hkept) hnext hreturned
      rintro milliseconds rfl
      exact hclear

/-- **A browser's stamps are distinct and ordered.** For any number of instances on one vault, with an atomic
update or under the Web Lock, any operations, failing writes and tabs that die; where no historical stamp is asked
for a time that an issued stamp has: all returned stamps are distinct; a stamp that `issue` returns is later than
every one returned by `issue` or given to `see` before; and the stored record never goes, nor does its last stamp
go back or its device change. -/
theorem stamps_are_distinct (mode : Mode) (issue : Issue) (hissue : Issues issue) (es : List Event)
    (hmeets : Run.Meets (step mode issue) Clear init es) :
    ((Run.exec (step mode issue) init es).issued ++ (Run.exec (step mode issue) init es).historical).Nodup ∧
    (∀ e x, x ∈ (Run.exec (step mode issue) init (es ++ [e])).issued →
      x ∈ (Run.exec (step mode issue) init es).issued ∨
        ∀ y, y ∈ (Run.exec (step mode issue) init es).issued ∨ y ∈ (Run.exec (step mode issue) init es).seen →
          later x y = true) ∧
    ∀ e c, (Run.exec (step mode issue) init es).vault.stored = some c →
      ∃ c', (Run.exec (step mode issue) init (es ++ [e])).vault.stored = some c' ∧ later c.last c'.last = false ∧
        c'.device = c.device := by
  have h : Good (Run.exec (step mode issue) init es) :=
    Run.exec_inv (I := Good) (fun _ _ h hclear => step_good h hissue mode hclear) good_init hmeets
  refine ⟨h.distinct, ?_, ?_⟩
  · intro e x hx
    rw [Run.exec_append] at hx
    change x ∈ (step mode issue (Run.exec (step mode issue) init es) e).issued at hx
    have hmove := step_move h mode issue e
    cases hmove with
    | same _ hlogs | seeded _ _ _ hlogs =>
      rw [(logs_eq hlogs).1] at hx
      exact .inl hx
    | @changed _ op _ _ _ _ _ _ hstored hchange _ hlogs =>
      rcases hlogs with hsame | hreturned
      · rw [(logs_eq hsame).1] at hx
        exact .inl hx
      · rw [(logs_eq hreturned).1] at hx
        cases op with
        | issue now =>
          rcases List.mem_append.mp hx with hold | hnew
          · exact .inl hold
          · obtain ⟨x', hanswer, hlt, -⟩ := (change_changes hissue hchange).issued now rfl
            rw [hanswer, List.mem_singleton] at hnew
            subst hnew
            refine .inr fun y hy => later_iff.mpr (lt_of_le_of_lt ?_ hlt)
            exact h.le_last hstored (hy.imp_right .inr)
        | historical | see | current => exact .inl hx
  · intro e c hc
    rw [Run.exec_append]
    show ∃ c', (step mode issue (Run.exec (step mode issue) init es) e).vault.stored = some c' ∧ _
    have hmove := step_move h mode issue e
    cases hmove with
    | same hstored => exact ⟨c, hstored.trans hc, later_irrefl _, rfl⟩
    | seeded hnone => cases hnone.symm.trans hc
    | changed _ hstored hchange hnext =>
      obtain rfl := Option.some.inj (hstored.symm.trans hc)
      have hchanges := change_changes hissue hchange
      refine ⟨_, hnext, ?_, hchanges.device⟩
      rw [Bool.eq_false_iff]
      intro hlater
      exact absurd hchanges.last (not_le.mpr (later_iff.mp hlater))

/-! ## Samples -/

/-- A hybrid clock: the time, where it is past the last stamp's, and else the next counter, if that is a safe
integer. -/
def hybrid : Issue := fun last now device =>
  let stamp := if last.1 < now then (now, 0, device) else (last.1, last.2.1 + 1, device)
  if validStamp stamp then some stamp else none

theorem hybrid_issues : Issues hybrid := by
  intro last now device stamp h
  unfold hybrid at h
  obtain ⟨hvalid, heq⟩ := Option.ite_none_right_eq_some.mp h
  obtain rfl := Option.some.inj heq
  split_ifs at hvalid ⊢ with hlt
  · refine ⟨rfl, later_iff.mpr ?_, (max_eq_left hlt.le).symm, hvalid⟩
    exact Prod.Lex.toLex_lt_toLex.mpr (.inl hlt)
  · refine ⟨rfl, later_iff.mpr ?_, (max_eq_right (not_lt.mp hlt)).symm, hvalid⟩
    exact Prod.Lex.toLex_lt_toLex.mpr (.inr ⟨rfl, Prod.Lex.toLex_lt_toLex.mpr (.inl (Nat.lt_succ_self _))⟩)

def sampleDevice : String := "0123456789abcdef"

/-- Two tabs issue, see and reserve; one dies at a write that took place, and is opened again. -/
def sampleStamps : List Event :=
  [.opening none sampleDevice none [], .opening none "fedcba9876543210" none [], .operation 0 (.issue 1000) [],
    .operation 1 (.see (2000, 3, "other")) [], .operation 0 (.issue 1000) [.ok, .dies true],
    .opening none sampleDevice none [], .operation 2 (.historical [500, 500]) [], .operation 2 (.issue 1500) []]

theorem stamps_are_distinct_sample :
    Run.Meets (step .locked hybrid) Clear init sampleStamps ∧
    (Run.exec (step .locked hybrid) init sampleStamps).issued =
      [(1000, 0, sampleDevice), (2000, 5, sampleDevice)] ∧
    (Run.exec (step .locked hybrid) init sampleStamps).historical =
      [(500, 1, sampleDevice), (500, 2, sampleDevice)] ∧
    ((Run.exec (step .locked hybrid) init sampleStamps).issued ++
      (Run.exec (step .locked hybrid) init sampleStamps).historical).Nodup := by
  have hmeets : Run.Meets (step .locked hybrid) Clear init sampleStamps := by decide +kernel
  obtain ⟨hdistinct, -, -⟩ := stamps_are_distinct .locked hybrid hybrid_issues sampleStamps hmeets
  exact ⟨hmeets, by decide +kernel, by decide +kernel, hdistinct⟩

/-- Two stamps are issued in one millisecond, and a past stamp of that millisecond is reserved. -/
def sampleReuse : List Event :=
  [.opening none sampleDevice none [], .operation 0 (.issue 1000) [], .operation 0 (.issue 1000) [],
    .operation 0 (.historical [1000]) []]

/-- **A historical stamp is one that was issued.** The second stamp of a millisecond has counter 1, and so has the
first historical one. -/
theorem historical_stamp_was_issued :
    (1000, 1, sampleDevice) ∈ (Run.exec (step .atomic hybrid) init sampleReuse).issued ∧
      (1000, 1, sampleDevice) ∈ (Run.exec (step .atomic hybrid) init sampleReuse).historical := by
  decide +kernel

end DenEdge.Clock
