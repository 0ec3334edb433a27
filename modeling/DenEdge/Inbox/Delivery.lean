import DenEdge.Inbox.Sections

/-!
# Delivery, and appends that fail

What an accepted message may come to (`Accounted`), and that a queue in date has its marker (`Marked`). Both
follow, event by event, from what the sections leave. An append whose queue cannot be written deletes the queue's
marker, also one that was there before it, so the runs are those in which that does not happen (`Careful`);
`failed_append_unmarks` is one in which it does.
-/

namespace DenEdge.Inbox

open Storage

variable {wake : WakeId}

/-! ## What becomes of a message -/

def Leaving.isDrained : Leaving → Bool
  | .drained _ => true
  | _ => false

/-- Every message accepted for a queue left it in one way, or waits in it; all in the order they were accepted. -/
structure Accounted (l : Ledger) (queue : List String) : Prop where
  accepted : l.accepted = l.gone.map Prod.fst ++ queue
  /-- The messages that left by a drain are those it returned. -/
  drained : ∀ n, (l.gone.filter fun e => e.2 = .drained n).map Prod.fst = l.drains.getD n []
  /-- The drains together returned them in the order they were accepted. -/
  ordered : (l.gone.filter fun e => e.2.isDrained).map Prod.fst = l.drains.flatten
  /-- A message that fell off the front had fifty newer ones accepted after it. -/
  crowded : ∀ (i n : ℕ) (m : String), l.gone[i]? = some (m, .crowdedOut n) →
    i + MAX_MESSAGES < n ∧ n ≤ l.accepted.length
  expired : ∀ (m : String) (expiresAt now : ℕ), (m, .expired expiresAt now) ∈ l.gone → expiresAt ≤ now

/-- The messages in a queue's file. -/
def stored (file : Option File) : List String := file.elim [] File.messages

theorem accounted_nil : Accounted ⟨[], [], []⟩ [] where
  accepted := rfl
  drained n := by simp
  ordered := rfl
  crowded i n m h := by simp at h
  expired m a now h := by simp at h

variable {l : Ledger} {queue : List String} {before : Option File} {now : ℕ}
variable {rest : List String} {note : Ledger → Ledger} {many : Bool} {answer : Option (List String)}
    {es : List Event}

/-- Messages at the front leave, all in one way. -/
theorem Accounted.leave {how : Leaving} {drains : List (List String)} (h : Accounted l (queue ++ rest))
    (hdrained : ∀ n, drains.getD n [] = l.drains.getD n [] ++ if how = .drained n then queue else [])
    (hordered : drains.flatten = l.drains.flatten ++ if how.isDrained then queue else [])
    (hcrowded : ∀ (n i : ℕ), how = .crowdedOut n → i < queue.length →
      l.gone.length + i + MAX_MESSAGES < n ∧ n ≤ l.accepted.length)
    (hexpired : ∀ expiresAt now, how = .expired expiresAt now → expiresAt ≤ now) :
    Accounted { l with gone := l.gone ++ queue.map fun m => (m, how), drains := drains } rest where
  accepted := by
    have haccepted := h.accepted
    simp only [List.map_append, List.map_map, Function.comp_def, List.map_id', List.append_assoc]
    exact haccepted
  drained n := by
    rw [List.filter_append, List.map_append, h.drained n, hdrained n]
    by_cases hhow : how = .drained n <;> simp [List.filter_map, Function.comp_def, hhow]
  ordered := by
    rw [List.filter_append, List.map_append, h.ordered, hordered]
    cases hhow : how.isDrained <;> simp [List.filter_map, Function.comp_def, hhow]
  crowded i n m hi := by
    by_cases hold : i < l.gone.length
    · rw [List.getElem?_append_left hold] at hi
      exact h.crowded i n m hi
    · -- the message is one of those that leave now
      rw [List.getElem?_append_right (not_lt.mp hold), List.getElem?_map] at hi
      obtain ⟨m', hm', heq⟩ := Option.map_eq_some_iff.mp hi
      have hlt := (List.getElem?_eq_some_iff.mp hm').1
      have hhow : how = .crowdedOut n := congrArg Prod.snd heq
      have hbound := hcrowded n (i - l.gone.length) hhow hlt
      have hindex : l.gone.length + (i - l.gone.length) = i := by omega
      rw [hindex] at hbound
      exact hbound
  expired m expiresAt now hm := by
    rcases List.mem_append.mp hm with hm | hm
    · exact h.expired m expiresAt now hm
    · obtain ⟨m', -, heq⟩ := List.mem_map.mp hm
      exact hexpired expiresAt now (congrArg Prod.snd heq)

variable {after : Option File} {req : AppendRequest} {s' : State}

/-- What expires of a queue leaves what has not. -/
theorem Accounted.expire (h : Accounted l (stored before))
    (hchanged : ∀ f, before = some f → f.expiresAt ≤ now → after ≠ before) :
    Accounted (l.expire before after now) (live before now) := by
  cases before with
  | none => exact h
  | some f =>
    unfold live
    by_cases hexpired : f.expiresAt ≤ now
    · have hgone := hchanged f rfl hexpired
      have hnil : (fresh (some f) now).elim [] File.messages = [] := by rw [fresh_of_expired hexpired]; rfl
      simp only [Ledger.expire, if_pos (And.intro hexpired hgone), hnil]
      have hall : Accounted l (f.messages ++ []) := by rw [List.append_nil]; exact h
      refine hall.leave (by simp) (by simp [Leaving.isDrained]) ?_ ?_
      · rintro n i hhow
        cases hhow
      · rintro a b hhow
        cases hhow
        exact hexpired
    · have hkeep : l.expire (some f) after now = l := by simp [Ledger.expire, hexpired]
      rw [hkeep, fresh_of_lt (not_le.mp hexpired)]
      exact h

theorem Ledger.expire_same (l : Ledger) (now : ℕ) (h : after = before) :
    l.expire before after now = l := by
  cases before <;> simp [Ledger.expire, h]

/-- A message is accepted at the end of what waits, and what no longer fits leaves at the front. -/
theorem Accounted.accept {waiting : List String} (h : Accounted l waiting) (message : String) :
    Accounted (l.accept waiting message) (enqueue waiting message) := by
  -- first the message comes in, then the front falls off
  have hin : Accounted { l with accepted := l.accepted ++ [message] } (waiting ++ [message]) := by
    refine ⟨?_, h.drained, h.ordered, ?_, h.expired⟩
    · have haccepted := h.accepted
      simp only [haccepted, List.append_assoc]
    · intro i n m hi
      have hbound := h.crowded i n m hi
      rw [List.length_append]
      exact ⟨hbound.1, by omega⟩
  have hsplit : (waiting ++ [message]).take ((waiting ++ [message]).length - MAX_MESSAGES) ++
      enqueue waiting message = waiting ++ [message] := List.take_append_drop _ _
  rw [← hsplit] at hin
  have hlength := congrArg List.length h.accepted
  simp only [List.length_append, List.length_map] at hlength
  refine hin.leave (by simp) (by simp [Leaving.isDrained]) ?_ ?_
  · rintro n i hhow hi
    cases hhow
    simp only [List.length_take, List.length_append, List.length_cons, List.length_nil] at hi ⊢
    omega
  · rintro a b hhow
    cases hhow

theorem getD_snoc (drains : List (List String)) (queue : List String) (n : ℕ) :
    (drains ++ [queue]).getD n [] = if n = drains.length then queue else drains.getD n [] := by
  simp only [List.getD_eq_getElem?_getD, List.getElem?_append]
  split_ifs with hlt heq heq
  · omega
  · rfl
  · simp [heq]
  · have hnew : [queue][n - drains.length]? = none := List.getElem?_eq_none (by rw [List.length_singleton]; omega)
    rw [hnew, List.getElem?_eq_none (by omega)]

/-- A drain took what it returned, or returned nothing. -/
theorem Accounted.drain {left : Bool} (h : Accounted l (queue ++ rest)) (hleft : left = true ∨ queue = []) :
    Accounted (l.drain queue left) rest := by
  have hdrain : l.drain queue left = { l with
      gone := l.gone ++ queue.map fun m => (m, .drained l.drains.length)
      drains := l.drains ++ [queue] } := by
    rcases hleft with rfl | rfl
    · rfl
    · cases left <;> simp [Ledger.drain]
  rw [hdrain]
  refine h.leave (fun n => ?_) (by simp [Leaving.isDrained]) ?_ ?_
  · rw [getD_snoc]
    by_cases hn : n = l.drains.length
    · simp [hn]
    · simp [hn, Ne.symm hn]
  · rintro n i hhow
    cases hhow
  · rintro a b hhow
    cases hhow

/-! ## Which events are meant -/

/-- Every deletion of the event succeeds. -/
def DeletesSucceed : Event → Prop
  | .append _ _ fails => ∀ f ∈ fails, ∀ name, f.1 ≠ .delete name
  | .drain _ _ fails => ∀ f ∈ fails, ∀ name, f.1 ≠ .delete name
  | .take _ _ fails => ∀ f ∈ fails, ∀ name, f.1 ≠ .delete name
  | .sweep _ _ fails => ∀ f ∈ fails, ∀ name, f.1 ≠ .delete name
  | .look _ _ => True
  | .expire _ succeeds => succeeds = true

/-- Where an append writes its marker and not its queue, no marker was there before and the undo succeeds; a drain
of many that cannot delete a queue cannot delete its marker; a reader without the lock deletes a file only while
it is still expired. -/
def Careful (wake : WakeId) (s : State) : Event → Prop
  | .append req _ fails =>
    ∀ p ∈ req.parse.toOption, Assoc.get fails (.put (.wake (wake.id p.1))) = none →
      Assoc.get fails (.put (.queue p.1)) ≠ none →
        s.marker wake p.1 = none ∧ Assoc.get fails (.delete (.wake (wake.id p.1))) = none
  | .take key _ fails =>
    Assoc.get fails (.delete (.queue key)) ≠ none → Assoc.get fails (.delete (.wake (wake.id key))) ≠ none
  | .expire i _ => ∀ p ∈ s.expiring[i]?, fresh (Assoc.get s.files p.1) p.2 = none
  | _ => True

instance (wake : WakeId) (s : State) (e : Event) : Decidable (Careful wake s e) := by
  cases e <;> unfold Careful <;> infer_instance

/-! ## One event -/

variable {fails : Fails} {key : String} {s : State}

theorem delete_succeeds (h : ∀ f ∈ fails, ∀ name, f.1 ≠ .delete name) (name : Name) :
    Assoc.get fails (.delete name) = none := by
  refine Assoc.get_eq_none.mpr fun f hf => ?_
  exact h f hf name

/-- What a drain does to the ledger of its queue. -/
def drainNote (key : String) (files : Files) (answer : Option (List String)) (l : Ledger) : Ledger :=
  answer.elim l fun messages => l.drain messages (Assoc.get files (.queue key) = none)

/-- A queue that was cleared, or left, at a time. -/
theorem Accounted.clear (h : Accounted l (stored before))
    (hafter : after = before ∨ after = fresh before now) :
    Accounted (l.expire before after now) (stored after) := by
  rcases hafter with rfl | rfl
  · rw [l.expire_same now rfl]
    exact h
  · refine h.expire fun f hf hexpired => ?_
    rw [hf, fresh_of_expired hexpired]
    simp

/-- A queue in date that a drain took. -/
theorem Accounted.taken {file : File} (h : Accounted l (stored before)) (hfile : fresh before now = some file) :
    Accounted ((l.expire before none now).drain file.messages true) [] := by
  obtain ⟨rfl, hlater⟩ := fresh_eq_some hfile
  have hkept : l.expire (some file) none now = l := by simp [Ledger.expire, hlater]
  rw [hkept]
  refine Accounted.drain ?_ (.inl rfl)
  rw [List.append_nil]
  exact h

theorem get_taken (files : Files) (key id : String) (unmarked : Bool) :
    Assoc.get (if unmarked then Assoc.erase (Assoc.erase files (.queue key)) (.wake id)
      else Assoc.erase files (.queue key)) (.queue key) = none := by
  cases unmarked <;> simp [Assoc.get_erase]

/-- Every queue is accounted for. -/
def Delivered (s : State) : Prop := ∀ key, Accounted (s.ledger key) (stored (s.file key))

variable {files : Files} {name : Name}

section

variable (h : Delivered s)
include h

/-- Every queue is accounted for after a request on one, where that one is and the files of the others are left.
-/
theorem leave_delivered
    (hothers : ∀ other, other ≠ key → Assoc.get files (.queue other) = s.file other)
    (hkey : Accounted (note ((s.ledger key).expire (s.file key) (Assoc.get files (.queue key)) now))
      (stored (Assoc.get files (.queue key)))) : Delivered (s.leave files now key note) := by
  intro k
  unfold State.leave State.file
  by_cases hk : k = key
  · subst hk
    simp only [Function.update_self]
    exact hkey
  · simp only [Function.update_of_ne hk, hothers k hk]
    exact h k

theorem append_delivered : Delivered (step wake s (.append req now fails)) := by
  cases hparse : req.parse with
  | error =>
    simp only [step, hparse]
    exact h
  | ok p =>
    obtain ⟨key, message⟩ := p
    have haccepts := append_accepts wake s now hparse fails
    simp only [step, hparse]
    refine leave_delivered h (fun other hother => haccepts.others (by simpa using hother) (by simp)) ?_
    rcases haccepts.queue with ⟨hreply, hqueue⟩ | ⟨hreply, hqueue⟩
    · -- what had expired goes first; the new queue is not the old one, for it expires later
      rw [if_pos hreply, hqueue]
      refine ((h key).expire fun f hf hexpired => ?_).accept message
      rw [hf]
      intro heq
      have hsame := congrArg File.expiresAt (Option.some.inj heq)
      simp only [File.expiresAt, TTL_MS] at hsame hexpired
      omega
    · rw [if_neg hreply]
      exact (h key).clear hqueue

theorem drained_delivered
    (hdrains : Drains wake (May.failing fails) many s.files key now answer files)
    (hdeletes : ∀ f ∈ fails, ∀ name, f.1 ≠ .delete name) :
    Delivered (s.leave files now key (drainNote key files answer)) := by
  refine leave_delivered h (fun other hother => hdrains.others (by simpa using hother) (by simp)) ?_
  cases hdrains with
  | unread hnone =>
    have hsame := (h key).clear (show _ = _ ∨ _ = fresh _ now from .inl rfl)
    cases answer with
    | none => exact hsame
    | some messages =>
      obtain rfl : messages = [] := hnone
      exact hsame.drain (.inr rfl)
  | empty => exact ((h key).clear (.inr (get_cleared s.files key now))).drain (.inr rfl)
  | taken _ hfile =>
    simp only [drainNote, get_taken]
    exact (h key).taken hfile
  | kept _ _ hkept => exact absurd (delete_succeeds hdeletes (.queue key)) hkept

end

/-- A file goes while it is expired, or stays. -/
structure Loses (s s' : State) (name : Name) (now : ℕ) : Prop where
  files : s'.files = s.files ∨ s'.files = Assoc.erase s.files name ∧ fresh (Assoc.get s.files name) now = none
  ledger : ∀ key, s'.ledger key =
    if name = .queue key then (s.ledger key).expire (s.file key) (s'.file key) now else s.ledger key
  clock : max s.clock now ≤ s'.clock
  expiring : ∀ p ∈ s'.expiring, p ∈ s.expiring

theorem sweep_loses (wake : WakeId) (s : State) (name : Name) (now : ℕ) (fails : Fails) :
    Loses s (step wake s (.sweep name now fails)) name now := by
  have hfiles := sweep_leaves s name now fails
  cases name with
  | queue key =>
    refine ⟨hfiles, fun k => ?_, le_rfl, fun p hp => hp⟩
    by_cases hk : k = key
    · subst hk
      simp [step, State.leave, State.file]
    · simp [step, State.leave, Ne.symm hk, hk]
  | wake id => exact ⟨hfiles, fun k => by simp [step], le_rfl, fun p hp => hp⟩

theorem expire_loses {i : ℕ} {succeeds : Bool} (hreader : s.expiring[i]? = some (name, now))
    (hlooked : now ≤ s.clock) (hcareful : Careful wake s (.expire i succeeds)) :
    Loses s (step wake s (.expire i succeeds)) name now := by
  have hexpired : fresh (Assoc.get s.files name) now = none := hcareful (name, now) hreader
  have hfiles : (if succeeds then Assoc.erase s.files name else s.files) = s.files ∨
      (if succeeds then Assoc.erase s.files name else s.files) = Assoc.erase s.files name ∧
        fresh (Assoc.get s.files name) now = none := by
    cases succeeds with
    | true => exact .inr ⟨rfl, hexpired⟩
    | false => exact .inl rfl
  cases name with
  | queue key =>
    simp only [step, hreader]
    refine ⟨hfiles, fun k => ?_, le_rfl, fun p hp => List.mem_of_mem_eraseIdx hp⟩
    by_cases hk : k = key
    · subst hk
      simp [State.leave, State.file]
    · simp [State.leave, Ne.symm hk, hk]
  | wake id =>
    simp only [step, hreader]
    exact ⟨hfiles, fun k => by simp, max_le le_rfl hlooked, fun p hp => List.mem_of_mem_eraseIdx hp⟩

theorem Loses.delivered (hloses : Loses s s' name now) (h : Delivered s) : Delivered s' := by
  intro k
  rw [hloses.ledger k]
  rcases hloses.files with hsame | ⟨herased, hexpired⟩
  · have hfile : s'.file k = s.file k := by rw [State.file, hsame]; rfl
    rw [hfile, (s.ledger k).expire_same now rfl, ite_self]
    exact h k
  · have hfile : s'.file k = if Name.queue k = name then none else s.file k := by
      rw [State.file, herased, Assoc.get_erase]
      rfl
    split_ifs with hname
    · subst hname
      rw [hfile, if_pos rfl]
      exact (h k).clear (.inr hexpired.symm)
    · rw [hfile, if_neg (Ne.symm hname)]
      exact h k

theorem look_spec (wake : WakeId) (s : State) (name : Name) (now : ℕ) : step wake s (.look name now) = s ∨
    step wake s (.look name now) =
      { s with expiring := s.expiring ++ [(name, now)], clock := max s.clock now } := by
  cases hfile : Assoc.get s.files name with
  | none => exact .inl (by simp only [step, hfile])
  | some file =>
    by_cases hexpired : file.expiresAt ≤ now
    · exact .inr (by simp only [step, hfile, if_pos hexpired])
    · exact .inl (by simp only [step, hfile, if_neg hexpired])

theorem step_drain (wake : WakeId) (s : State) (key : String) (now : ℕ) (fails : Fails) :
    step wake s (.drain key now fails) = s.leave (drainResult wake s key now fails).1 now key
      (drainNote key (drainResult wake s key now fails).1 (drainResult wake s key now fails).2.drained) := by
  simp only [step]
  cases (drainResult wake s key now fails).2 <;> rfl

/-! ## Markers -/

/-- A queue in date has its marker, and whoever is about to expire a file looked at it at a time that has been. -/
structure Marked (wake : WakeId) (s : State) : Prop where
  marked : ∀ key f, s.file key = some f → s.clock < f.expiresAt →
    ∃ m, s.marker wake key = some m ∧ m.expiresAt = f.expiresAt
  looked : ∀ p ∈ s.expiring, p.2 ≤ s.clock

theorem marked_init (wake : WakeId) : Marked wake init where
  marked key f h := by cases h
  looked p h := by cases h

/-- A later state whose queue in date is as it was, or new with its marker, or whose marker is as it was. -/
theorem Marked.later (h : Marked wake s) (hclock : s.clock ≤ s'.clock)
    (hexpiring : ∀ p ∈ s'.expiring, p ∈ s.expiring ∨ p.2 ≤ s'.clock)
    (hkeys : ∀ key f, s'.file key = some f → s'.clock < f.expiresAt →
      (s.file key = some f ∧ (s'.marker wake key = s.marker wake key)) ∨
        ∃ m, s'.marker wake key = some m ∧ m.expiresAt = f.expiresAt) : Marked wake s' where
  marked key f hfile hlater := by
    rcases hkeys key f hfile hlater with ⟨hfile', hmarker⟩ | hnew
    · rw [hmarker]
      exact h.marked key f hfile' (by omega)
    · exact hnew
  looked p hp := by
    rcases hexpiring p hp with hp | hp
    · exact (h.looked p hp).trans hclock
    · exact hp

/-- The files of a request on one queue, which leaves those of the others: what is to be said of that one. -/
theorem Marked.leave (h : Marked wake s)
    (hothers : ∀ name, name ≠ .queue key → name ≠ .wake (wake.id key) →
      Assoc.get files name = Assoc.get s.files name)
    (hkey : ∀ f, Assoc.get files (.queue key) = some f → now < f.expiresAt →
      (s.file key = some f ∧ Assoc.get files (.wake (wake.id key)) = s.marker wake key) ∨
        ∃ m, Assoc.get files (.wake (wake.id key)) = some m ∧ m.expiresAt = f.expiresAt) :
    Marked wake (s.leave files now key note) := by
  refine h.later (le_max_left _ _) (fun p hp => .inl hp) fun k f hfile hlater => ?_
  by_cases hk : k = key
  · subst hk
    exact hkey f hfile ((le_max_right _ _).trans_lt hlater)
  · -- ids are injective, so the marker is another one too
    have hid : wake.id k ≠ wake.id key := fun heq => hk (wake.injective heq)
    refine .inl ⟨?_, hothers _ (by simp) (by simpa using hid)⟩
    have hsame := hothers (.queue k) (by simpa using hk) (by simp)
    exact hsame.symm.trans hfile

theorem refused_marker {message : String} (hparse : req.parse = .ok (key, message))
    (hcareful : Careful wake s (.append req now fails)) (hrefused : (appendResult wake s req now fails).2 ≠ .ok) :
    Assoc.get (appendResult wake s req now fails).1 (.wake (wake.id key)) = s.marker wake key := by
  refine (append_accepts wake s now hparse fails).marker_of_refused hrefused fun v w hmarked hfailed => ?_
  obtain ⟨hnone, hdelete⟩ := hcareful (key, message) (by rw [hparse]; rfl) hmarked hfailed
  exact ⟨hnone, fun hfail => hfail hdelete⟩

theorem append_marked (hcareful : Careful wake s (.append req now fails)) (h : Marked wake s) :
    Marked wake (step wake s (.append req now fails)) := by
  cases hparse : req.parse with
  | error =>
    simp only [step, hparse]
    exact h
  | ok p =>
    obtain ⟨key, message⟩ := p
    have haccepts := append_accepts wake s now hparse fails
    simp only [step, hparse]
    refine h.leave (fun name hqueue hmarker => haccepts.others hqueue hmarker) fun f hf _ => ?_
    rcases haccepts.queue with ⟨hreply, hqueue⟩ | ⟨hreply, hqueue⟩
    · rw [hreply] at haccepts
      obtain ⟨first, hmarker⟩ := haccepts.marker
      rw [hqueue] at hf
      cases hf
      exact .inr ⟨_, hmarker, rfl⟩
    · refine .inl ⟨?_, refused_marker hparse hcareful hreply⟩
      rcases hqueue with hqueue | hqueue
      · exact hqueue.symm.trans hf
      · exact (fresh_eq_some (hqueue.symm.trans hf)).1

theorem drained_marked
    (hdrains : Drains wake (May.failing fails) many s.files key now answer files) (hcareful : many = true →
      Assoc.get fails (.delete (.queue key)) ≠ none → Assoc.get fails (.delete (.wake (wake.id key))) ≠ none)
    (h : Marked wake s) : Marked wake (s.leave files now key (drainNote key files answer)) := by
  refine h.leave (fun name hqueue hmarker => hdrains.others hqueue hmarker) fun f hf _ => ?_
  cases hdrains with
  | unread => exact .inl ⟨hf, rfl⟩
  | empty hempty =>
    rw [get_cleared, hempty] at hf
    cases hf
  | taken =>
    rw [get_taken] at hf
    cases hf
  | kept file hmany hkept unmarked hmarker =>
    cases unmarked with
    | true => exact absurd (hmarker rfl) (hcareful hmany hkept)
    | false => exact .inl ⟨hf, rfl⟩

theorem Loses.marked (hloses : Loses s s' name now) (h : Marked wake s) : Marked wake s' := by
  obtain ⟨hclock, hnow⟩ := max_le_iff.mp hloses.clock
  refine h.later hclock (fun p hp => .inl (hloses.expiring p hp)) fun key f hfile hlater => .inl ?_
  rcases hloses.files with hsame | ⟨herased, hexpired⟩
  · rw [State.file, hsame] at hfile
    exact ⟨hfile, by rw [State.marker, hsame]; rfl⟩
  rw [State.file, herased, Assoc.get_erase] at hfile
  have hne : Name.queue key ≠ name := by
    intro heq
    rw [if_pos heq] at hfile
    cases hfile
  rw [if_neg hne] at hfile
  refine ⟨hfile, ?_⟩
  rw [State.marker, herased, Assoc.get_erase]
  split_ifs with hname
  · -- the marker that went expires with its queue, so the queue is not in date any more
    exfalso
    obtain ⟨m, hm, hsame⟩ := h.marked key f hfile (by omega)
    rw [← hname] at hexpired
    rw [State.marker] at hm
    rw [hm, fresh_of_lt (by omega)] at hexpired
    cases hexpired
  · rfl

theorem Marked.look (h : Marked wake s) :
    Marked wake { s with expiring := s.expiring ++ [(name, now)], clock := max s.clock now } := by
  refine h.later (le_max_left _ _) (fun p hp => ?_) fun key f hf _ => .inl ⟨hf, rfl⟩
  rcases List.mem_snoc.mp hp with hp | rfl
  · exact .inl hp
  · exact .inr (le_max_right _ _)

theorem step_keeps {e : Event} (h : Marked wake s) (hcareful : Careful wake s e) :
    Marked wake (step wake s e) ∧ (DeletesSucceed e → Delivered s → Delivered (step wake s e)) := by
  cases e with
  | append => exact ⟨append_marked hcareful h, fun _ hs => append_delivered hs⟩
  | drain key now fails =>
    have hdrains := drain_drains wake s key now fails
    rw [step_drain]
    exact ⟨drained_marked hdrains (nofun) h, fun hdeletes hs => drained_delivered hs hdrains hdeletes⟩
  | take key now fails =>
    have hdrains := take_drains wake s key now fails
    exact ⟨drained_marked hdrains (fun _ => hcareful) h, fun hdeletes hs => drained_delivered hs hdrains hdeletes⟩
  | sweep name now fails =>
    have hloses := sweep_loses wake s name now fails
    exact ⟨hloses.marked h, fun _ => hloses.delivered⟩
  | look name now =>
    rcases look_spec wake s name now with heq | heq <;> rw [heq]
    · exact ⟨h, fun _ hs => hs⟩
    · exact ⟨h.look, fun _ hs => hs⟩
  | expire i =>
    cases hreader : s.expiring[i]? with
    | none =>
      simp only [step, hreader]
      exact ⟨h, fun _ hs => hs⟩
    | some p =>
      have hloses := expire_loses hreader (h.looked p (List.mem_of_getElem? hreader)) hcareful
      exact ⟨hloses.marked h, fun _ => hloses.delivered⟩

/-! ## Whole runs -/

theorem exec_marked (hmeets : Run.Meets (step wake) (Careful wake) init es) :
    Marked wake (Run.exec (step wake) init es) :=
  Run.exec_inv (fun _ _ h hcareful => (step_keeps h hcareful).1) (marked_init wake) hmeets

theorem exec_delivered (hmeets : Run.Meets (step wake) (Careful wake) init es)
    (hdeletes : ∀ e ∈ es, DeletesSucceed e) : Delivered (Run.exec (step wake) init es) := by
  have hboth := Run.meets_and.mpr ⟨hmeets, Run.meets_of_forall hdeletes init⟩
  refine (Run.exec_inv (I := fun s => Marked wake s ∧ Delivered s) ?_
    ⟨marked_init wake, fun _ => accounted_nil⟩ hboth).2
  rintro s e ⟨hmarked, h⟩ ⟨hcareful, hdeletes⟩
  exact (step_keeps hmarked hcareful).imp_right fun hstep => hstep hdeletes h

/-- An append that is not answered `ok` leaves every queue and every marker, but for a queue that had expired. -/
theorem refused_append_leaves (hcareful : Careful wake s (.append req now fails))
    (hrefused : (appendResult wake s req now fails).2 ≠ .ok) (key : String) :
    ((step wake s (.append req now fails)).file key = s.file key ∨
      (step wake s (.append req now fails)).file key = fresh (s.file key) now) ∧
    (step wake s (.append req now fails)).marker wake key = s.marker wake key := by
  cases hparse : req.parse with
  | error =>
    have hsame : step wake s (.append req now fails) = s := by simp only [step, hparse]
    rw [hsame]
    exact ⟨.inl rfl, rfl⟩
  | ok p =>
    obtain ⟨addressed, message⟩ := p
    have haccepts := append_accepts wake s now hparse fails
    simp only [step, hparse, State.leave, State.file, State.marker]
    by_cases hkey : key = addressed
    · subst hkey
      rcases haccepts.queue with ⟨hreply, -⟩ | ⟨-, hqueue⟩
      · exact absurd hreply hrefused
      exact ⟨hqueue, refused_marker hparse hcareful hrefused⟩
    · have hid : wake.id key ≠ wake.id addressed := fun heq => hkey (wake.injective heq)
      exact ⟨.inl (haccepts.others (by simpa using hkey) (by simp)),
        haccepts.others (by simp) (by simpa using hid)⟩

/-- **The inbox delivers, and an append that fails changes nothing.** Over every run in which no failed append
undoes a marker it did not make, and no reader without the lock deletes a file that was written since it looked:
with deletions that succeed every accepted message is accounted for, an append that is not answered `ok` leaves
its queue (an expired one apart) and its marker, and a queue in date has its marker. -/
theorem inbox_delivers (wake : WakeId) (es : List Event) (hmeets : Run.Meets (step wake) (Careful wake) init es) :
    ((∀ e ∈ es, DeletesSucceed e) → ∀ key,
      Accounted ((Run.exec (step wake) init es).ledger key) (stored ((Run.exec (step wake) init es).file key))) ∧
    (∀ req now fails, Careful wake (Run.exec (step wake) init es) (.append req now fails) →
      (appendResult wake (Run.exec (step wake) init es) req now fails).2 ≠ .ok → ∀ key,
        ((Run.exec (step wake) init (es ++ [.append req now fails])).file key =
            (Run.exec (step wake) init es).file key ∨
          (Run.exec (step wake) init (es ++ [.append req now fails])).file key =
            fresh ((Run.exec (step wake) init es).file key) now) ∧
        (Run.exec (step wake) init (es ++ [.append req now fails])).marker wake key =
          (Run.exec (step wake) init es).marker wake key) ∧
    (∀ key f, (Run.exec (step wake) init es).file key = some f →
      (Run.exec (step wake) init es).clock < f.expiresAt →
      (Run.exec (step wake) init es).marker wake key ≠ none) := by
  refine ⟨fun hdeletes => exec_delivered hmeets hdeletes, ?_, ?_⟩
  · intro req now fails hcareful hrefused key
    rw [Run.exec_append]
    exact refused_append_leaves hcareful hrefused key
  · intro key f hfile hlater
    obtain ⟨m, hm, -⟩ := (exec_marked hmeets).marked key f hfile hlater
    rw [hm]
    simp

/-! ## Samples -/

def plainWake : WakeId := ⟨id, Function.injective_id⟩

def sampleKey : String := "deadbeefcafe1234deadbeef"

def sampleAppend (sealed : String) : AppendRequest := ⟨some sampleKey, .ok ⟨none, some sealed⟩, false, false⟩

/-- Two messages, of which the first is drained. -/
def sampleRun : List Event :=
  [.append (sampleAppend "AAEC") 5 [], .drain sampleKey 6 [], .append (sampleAppend "AAED") 7 []]

theorem inbox_delivers_sample :
    Run.Meets (step plainWake) (Careful plainWake) init sampleRun ∧
    Accounted ((Run.exec (step plainWake) init sampleRun).ledger sampleKey) ["AAED"] ∧
    (Run.exec (step plainWake) init sampleRun).marker plainWake sampleKey ≠ none := by
  have hmeets : Run.Meets (step plainWake) (Careful plainWake) init sampleRun := by decide +kernel
  obtain ⟨hdelivers, -, hmarked⟩ := inbox_delivers plainWake sampleRun hmeets
  have hfile : (Run.exec (step plainWake) init sampleRun).file sampleKey =
      some (.queue (7 + TTL_MS) ["AAED"]) := by
    decide +kernel
  have hdeletes : ∀ e ∈ sampleRun, DeletesSucceed e := by
    intro e he
    simp only [sampleRun, List.mem_cons, List.not_mem_nil, or_false] at he
    rcases he with rfl | rfl | rfl <;> intro f hf <;> cases hf
  have haccounted := hdelivers hdeletes sampleKey
  exact ⟨hmeets, haccounted, hmarked sampleKey _ hfile (by decide +kernel)⟩

/-- **A failed append takes the marker of a queue that holds a message.** The second append writes its marker over
the first one's, cannot write the queue, and deletes the marker; it is answered 500. -/
theorem failed_append_unmarks :
    let s := Run.exec (step plainWake) init [.append (sampleAppend "AAEC") 5 []]
    let failed := Event.append (sampleAppend "AAED") 6 [(.put (.queue sampleKey), .other)]
    s.marker plainWake sampleKey = some (.marker (5 + TTL_MS) 5 5) ∧
    (appendResult plainWake s (sampleAppend "AAED") 6 [(.put (.queue sampleKey), .other)]).2 =
      .error 500 "internal_error" ∧
    (step plainWake s failed).marker plainWake sampleKey = none ∧
    (step plainWake s failed).file sampleKey = some (.queue (5 + TTL_MS) ["AAEC"]) := by
  decide +kernel

end DenEdge.Inbox
