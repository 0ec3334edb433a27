import DenEdge.Inbox.Model

/-!
# What each section of the inbox leaves

One lemma for each program that runs under the write lock: what it may answer, and the files it leaves with that
answer. Everything later is a case analysis over these.
-/

namespace DenEdge.Inbox

open Storage

variable {wake : WakeId} {may : May Name File} {files : Files} {key message : String} {now : ℕ}

theorem fresh_of_expired {file : File} (h : file.expiresAt ≤ now) : fresh (some file) now = none := by
  simp [fresh, h]

theorem fresh_of_lt {file : File} (h : now < file.expiresAt) : fresh (some file) now = some file := by
  unfold fresh
  rw [Option.filter_some, if_pos (by simpa using h)]

theorem fresh_eq_some {file : Option File} {f : File} (h : fresh file now = some f) :
    file = some f ∧ now < f.expiresAt := by
  unfold fresh at h
  have := Option.filter_eq_some_iff.mp h
  exact ⟨this.1, by simpa using this.2⟩

/-- The files without a queue that has expired. -/
def cleared (files : Files) (key : String) (now : ℕ) : Files :=
  if Assoc.get files (.queue key) ≠ none ∧ fresh (Assoc.get files (.queue key)) now = none then
    Assoc.erase files (.queue key)
  else files

variable {name : Name}

theorem get_cleared_of_ne (h : name ≠ .queue key) :
    Assoc.get (cleared files key now) name = Assoc.get files name := by
  unfold cleared
  split_ifs
  · rw [Assoc.get_erase, if_neg h]
  · rfl

theorem get_cleared (files : Files) (key : String) (now : ℕ) :
    Assoc.get (cleared files key now) (.queue key) = fresh (Assoc.get files (.queue key)) now := by
  unfold cleared
  split_ifs with h
  · rw [Assoc.get_erase, if_pos rfl, h.2]
  · -- nothing was deleted: there is no queue, or it has not expired
    cases hfile : Assoc.get files (.queue key) with
    | none => rfl
    | some file =>
      have hkeep : now < file.expiresAt := by
        by_contra hexpired
        have hnone := fresh_of_expired (not_lt.mp hexpired)
        exact h ⟨by simp [hfile], by rw [hfile, hnone]⟩
      rw [fresh_of_lt hkeep]

/-- A queue is read, and deleted where it has expired. -/
theorem load_spec {Q : Except Failure (Option (List String)) → Files → Prop} (hfailed : ∀ e, Q (.error e) files)
    (hloaded : Q (.ok ((fresh (Assoc.get files (.queue key)) now).map File.messages)) (cleared files key now)) :
    (load key now).Keeps (Ends may) (fun _ _ => True) (fun _ => True) Q files := by
  unfold load
  refine keeps_get trivial trivial (fun _ => ?_) fun _ e => hfailed e
  cases hfile : Assoc.get files (.queue key) with
  | none =>
    have hcleared : cleared files key now = files := by simp [cleared, hfile]
    rw [hfile, hcleared] at hloaded
    exact hloaded
  | some file =>
    rw [hfile] at hloaded
    by_cases hexpired : file.expiresAt ≤ now
    · have hfresh := fresh_of_expired hexpired
      have hcleared : cleared files key now = Assoc.erase files (.queue key) := by simp [cleared, hfile, hfresh]
      rw [hfresh, hcleared] at hloaded
      simp only [if_pos hexpired]
      exact keeps_delete trivial trivial (fun _ => ⟨trivial, hloaded⟩) fun _ e => hfailed e
    · have hfresh := fresh_of_lt (not_le.mp hexpired)
      have hcleared : cleared files key now = files := by simp [cleared, hfile, hfresh]
      rw [hfresh, hcleared] at hloaded
      simp only [if_neg hexpired]
      exact hloaded

/-- A marker written at a time. -/
def markerAt (now first : ℕ) : File := .marker (now + TTL_MS) first now

/-- What a valid append may answer and leave. -/
inductive Accepts (wake : WakeId) (may : May Name File) (files : Files) (key message : String) (now : ℕ) :
    Reply → Files → Prop where
  | unread (e : Failure) : Accepts wake may files key message now (internal e) files
  | limited (hnew : fresh (Assoc.get files (.queue key)) now = none) :
      Accepts wake may files key message now (.error 429 "rate_limited") (cleared files key now)
  | unmarked (e : Failure) : Accepts wake may files key message now (internal e) (cleared files key now)
  | undone (e : Failure) (first : ℕ) (hmarked : may.succeed (.put (.wake (wake.id key)) (markerAt now first)))
      (hqueue : may.fail (.put (.queue key)
        (.queue (now + TTL_MS) (enqueue (live (Assoc.get files (.queue key)) now) message)))) :
      Accepts wake may files key message now (internal e)
        (Assoc.erase (Assoc.set (cleared files key now) (.wake (wake.id key)) (markerAt now first))
          (.wake (wake.id key)))
  | left (e : Failure) (first : ℕ) (hmarked : may.succeed (.put (.wake (wake.id key)) (markerAt now first)))
      (hqueue : may.fail (.put (.queue key)
        (.queue (now + TTL_MS) (enqueue (live (Assoc.get files (.queue key)) now) message))))
      (hundo : may.fail (.delete (.wake (wake.id key)))) :
      Accepts wake may files key message now (internal e)
        (Assoc.set (cleared files key now) (.wake (wake.id key)) (markerAt now first))
  | accepted (first : ℕ) :
      Accepts wake may files key message now .ok
        (Assoc.set (Assoc.set (cleared files key now) (.wake (wake.id key)) (markerAt now first)) (.queue key)
          (.queue (now + TTL_MS) (enqueue (live (Assoc.get files (.queue key)) now) message)))

theorem accept_spec (startLimited : Bool) :
    (accept wake key message now startLimited).Keeps (Ends may) (fun _ _ => True) (fun _ => True)
      (Accepts wake may files key message now) files := by
  unfold accept
  refine Program.keeps_bind (load_spec (fun e => .unread e) ?_)
  have hlive : ((fresh (Assoc.get files (.queue key)) now).map File.messages).getD [] =
      live (Assoc.get files (.queue key)) now := by
    unfold live
    cases fresh (Assoc.get files (.queue key)) now <;> rfl
  by_cases hlimited : (fresh (Assoc.get files (.queue key)) now).map File.messages = none ∧ startLimited = true
  · simp only [if_pos hlimited]
    exact .limited (Option.map_eq_none_iff.mp hlimited.1)
  · simp only [if_neg hlimited, write, hlive]
    -- whatever is read of the old marker, the new one is written at this time
    have hwrite : ∀ first,
        (writeBoth wake key (enqueue (live (Assoc.get files (.queue key)) now) message) now first).Keeps
        (Ends may) (fun _ _ => True) (fun _ => True) (Accepts wake may files key message now)
        (cleared files key now) := by
      intro first
      refine keeps_put trivial trivial (fun hmarked => ⟨trivial, ?_⟩) fun _ e => .unmarked e
      refine keeps_put trivial trivial (fun _ => ⟨trivial, .accepted first⟩) fun hqueue e => ?_
      exact keeps_delete trivial trivial (fun _ => ⟨trivial, .undone e first hmarked hqueue⟩)
        fun hundo _ => .left e first hmarked hqueue hundo
    exact keeps_get trivial trivial (fun _ => hwrite _) fun _ e => hwrite _

/-- The messages an answer hands over. -/
def Reply.drained : Reply → Option (List String)
  | .messages found => some found
  | _ => none

/-- What a drain may hand over of a queue, and leave. Only a drain of many hands over a queue it cannot delete. -/
inductive Drains (wake : WakeId) (may : May Name File) (many : Bool) (files : Files) (key : String) (now : ℕ) :
    Option (List String) → Files → Prop where
  | unread {answer : Option (List String)} (hnone : answer.getD [] = []) :
    Drains wake may many files key now answer files
  | empty (hempty : fresh (Assoc.get files (.queue key)) now = none) :
      Drains wake may many files key now (some []) (cleared files key now)
  | taken (file : File) (hfile : fresh (Assoc.get files (.queue key)) now = some file) (unmarked : Bool) :
      Drains wake may many files key now (some file.messages)
        (if unmarked then Assoc.erase (Assoc.erase files (.queue key)) (.wake (wake.id key))
          else Assoc.erase files (.queue key))
  | kept (file : File) (hmany : many = true) (hkept : may.fail (.delete (.queue key))) (unmarked : Bool)
      (hmarker : unmarked = true → may.succeed (.delete (.wake (wake.id key)))) :
      Drains wake may many files key now (some file.messages)
        (if unmarked then Assoc.erase files (.wake (wake.id key)) else files)

theorem cleared_of_fresh {file : File} (h : fresh (Assoc.get files (.queue key)) now = some file) :
    cleared files key now = files := by simp [cleared, h]

theorem drain_spec : (drain wake key now).Keeps (Ends may) (fun _ _ => True) (fun _ => True)
    (fun reply => Drains wake may false files key now reply.drained) files := by
  have hinternal : ∀ e, Drains wake may false files key now (internal e).drained files := by
    intro e
    cases e <;> exact .unread rfl
  unfold drain
  by_cases hkey : ¬ validInboxKey key
  · rw [if_pos hkey]
    exact .unread rfl
  rw [if_neg hkey]
  refine Program.keeps_bind (load_spec (fun e => hinternal e) ?_)
  cases hfile : fresh (Assoc.get files (.queue key)) now with
  | none => exact .empty hfile
  | some file =>
    rw [cleared_of_fresh hfile]
    refine keeps_delete trivial trivial (fun _ => ⟨trivial, ?_⟩) fun _ e => hinternal e
    exact keeps_delete trivial trivial (fun _ => ⟨trivial, .taken file hfile true⟩) fun _ _ =>
      .taken file hfile false

theorem take_spec : (take wake key now).Keeps (Ends may) (fun _ _ => True) (fun _ => True)
    (fun messages => Drains wake may true files key now (some messages)) files := by
  unfold take
  refine Program.keeps_bind (load_spec (fun _ => .unread rfl) ?_)
  cases hfile : fresh (Assoc.get files (.queue key)) now with
  | none => exact .empty hfile
  | some file =>
    rw [cleared_of_fresh hfile]
    refine keeps_delete trivial trivial (fun _ => ⟨trivial, ?_⟩) fun hkept _ => ?_
    · exact keeps_delete trivial trivial (fun _ => ⟨trivial, .taken file hfile true⟩) fun _ _ =>
        .taken file hfile false
    · exact keeps_delete trivial trivial (fun hmarker => ⟨trivial, .kept file rfl hkept true fun _ => hmarker⟩)
        fun _ _ => .kept file rfl hkept false nofun

/-- A sweep leaves a file, or deletes it where it has expired. -/
theorem sweepInbox_spec : (sweepInbox name now).Keeps (Ends may) (fun _ _ => True) (fun _ => True)
    (fun _ files' => files' = files ∨ files' = Assoc.erase files name ∧
      fresh (Assoc.get files name) now = none) files := by
  unfold sweepInbox
  refine keeps_get trivial trivial (fun _ => ?_) fun _ _ => .inl rfl
  generalize hget : Assoc.get files name = found
  cases found with
  | none => exact .inl rfl
  | some file =>
    by_cases hexpired : file.expiresAt ≤ now
    · simp only [if_pos hexpired]
      exact keeps_delete trivial trivial (fun _ => ⟨trivial, .inr ⟨rfl, fresh_of_expired hexpired⟩⟩)
        fun _ _ => .inl rfl
    · simp only [if_neg hexpired]
      exact .inl rfl

/-! ## What they leave of the queue and of everything else -/

variable {files' : Files} {reply : Reply}

section

variable (h : Accepts wake may files key message now reply files')
include h

/-- A section on a queue leaves the other queues and their markers. -/
theorem Accepts.others (hqueue : name ≠ .queue key)
    (hmarker : name ≠ .wake (wake.id key)) : Assoc.get files' name = Assoc.get files name := by
  cases h <;> simp only [Assoc.get_set, Assoc.get_erase, if_neg hqueue, if_neg hmarker, get_cleared_of_ne hqueue]

/-- The queue has the message exactly where the append is answered `ok`. -/
theorem Accepts.queue :
    (reply = .ok ∧ Assoc.get files' (.queue key) =
      some (.queue (now + TTL_MS) (enqueue (live (Assoc.get files (.queue key)) now) message))) ∨
    (reply ≠ .ok ∧ (Assoc.get files' (.queue key) = Assoc.get files (.queue key) ∨
      Assoc.get files' (.queue key) = fresh (Assoc.get files (.queue key)) now)) := by
  have hinternal : ∀ e, internal e ≠ .ok := by
    intro e
    cases e <;> simp [internal]
  have hne : (Name.queue key : Name) ≠ .wake (wake.id key) := by simp
  cases h with
  | unread e => exact .inr ⟨hinternal e, .inl rfl⟩
  | limited _ => exact .inr ⟨by simp, .inr (get_cleared files key now)⟩
  | unmarked e => exact .inr ⟨hinternal e, .inr (get_cleared files key now)⟩
  | undone e =>
    refine .inr ⟨hinternal e, .inr ?_⟩
    rw [Assoc.get_erase, if_neg hne, Assoc.get_set, if_neg hne, get_cleared]
  | left e =>
    refine .inr ⟨hinternal e, .inr ?_⟩
    rw [Assoc.get_set, if_neg hne, get_cleared]
  | accepted => exact .inl ⟨rfl, by rw [Assoc.get_set, if_pos rfl]⟩

omit h in
theorem Accepts.marker (h : Accepts wake may files key message now .ok files') :
    ∃ first, Assoc.get files' (.wake (wake.id key)) = some (markerAt now first) := by
  generalize hreply : Reply.ok = reply at h
  cases h with
  | accepted first =>
    refine ⟨first, ?_⟩
    rw [Assoc.get_set, if_neg (by simp), Assoc.get_set, if_pos rfl]
  | unread e | unmarked e | undone e | left e => cases e <;> cases hreply
  | limited _ => cases hreply

/-- An append that is refused leaves the marker, unless it wrote one and could not write the queue. -/
theorem Accepts.marker_of_refused (hrefused : reply ≠ .ok)
    (hundo : ∀ v w, may.succeed (.put (.wake (wake.id key)) v) → may.fail (.put (.queue key) w) →
      Assoc.get files (.wake (wake.id key)) = none ∧ ¬ may.fail (.delete (.wake (wake.id key)))) :
    Assoc.get files' (.wake (wake.id key)) = Assoc.get files (.wake (wake.id key)) := by
  have hne : (Name.wake (wake.id key) : Name) ≠ .queue key := by simp
  cases h with
  | unread e => rfl
  | limited _ | unmarked e => exact get_cleared_of_ne hne
  | undone e first hmarked hqueue =>
    rw [Assoc.get_erase, if_pos rfl, (hundo _ _ hmarked hqueue).1]
  | left e first hmarked hqueue hfail => exact absurd hfail (hundo _ _ hmarked hqueue).2
  | accepted => exact absurd rfl hrefused

end

theorem Drains.others {many : Bool} {answer : Option (List String)}
    (h : Drains wake may many files key now answer files')
    (hqueue : name ≠ .queue key) (hmarker : name ≠ .wake (wake.id key)) :
    Assoc.get files' name = Assoc.get files name := by
  cases h with
  | unread => rfl
  | empty => exact get_cleared_of_ne hqueue
  | taken file _ unmarked => cases unmarked <;> simp [Assoc.get_erase, hqueue, hmarker]
  | kept file _ _ unmarked => cases unmarked <;> simp [Assoc.get_erase, hmarker]

/-! ## The sections as the machine runs them -/

/-- What holds of every way a program may end holds of its result. -/
theorem result_spec {α : Type} {ok : Files → Op Name File → Prop} {I : Files → Prop} {Q : α → Files → Prop}
    {p : Filing Name File α} (fails : Fails) (died : α) (h : p.Keeps (Ends (May.failing fails)) ok I Q files) :
    Q (result fails p files died).2 (result fails p files died).1 := by
  obtain ⟨files', a, hrun⟩ := run_failing fails p files
  have hQ := run_ends (within_failing fails) h hrun
  simp only [result, hrun]
  exact hQ

theorem append_accepts (wake : WakeId) (s : State) (now : ℕ) {req : AppendRequest}
    (hparse : req.parse = .ok (key, message)) (fails : Fails) :
    Accepts wake (May.failing fails) s.files key message now (appendResult wake s req now fails).2
      (appendResult wake s req now fails).1 := by
  have hprogram : append wake req now = accept wake key message now req.startLimited := by
    simp only [append, hparse]
  unfold appendResult
  rw [hprogram]
  exact result_spec fails .ok (accept_spec req.startLimited)

theorem drain_drains (wake : WakeId) (s : State) (key : String) (now : ℕ) (fails : Fails) :
    Drains wake (May.failing fails) false s.files key now (drainResult wake s key now fails).2.drained
      (drainResult wake s key now fails).1 :=
  result_spec fails .ok drain_spec

theorem take_drains (wake : WakeId) (s : State) (key : String) (now : ℕ) (fails : Fails) :
    Drains wake (May.failing fails) true s.files key now (some (takeResult wake s key now fails).2)
      (takeResult wake s key now fails).1 :=
  result_spec fails [] take_spec

theorem sweep_leaves (s : State) (name : Name) (now : ℕ) (fails : Fails) :
    sweepResult s name now fails = s.files ∨
    sweepResult s name now fails = Assoc.erase s.files name ∧ fresh (Assoc.get s.files name) now = none :=
  result_spec fails (.ok false) sweepInbox_spec

end DenEdge.Inbox
