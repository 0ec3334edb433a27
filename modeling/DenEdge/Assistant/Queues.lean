import DenEdge.Assistant.Model

/-!
# Assistant queues neither lose nor invent requests

Each queue keeps, of the requests that were answered with a sequence since its file was last deleted, those that
are not too old, each once: among what waits or among what was taken. And a deletion leaves no file of the
library, where it knew of every lane that has one.
-/

namespace DenEdge.Assistant

/-! ## One queue -/

/-- What a queue keeps of the requests it has issued. -/
structure Kept (lane : Lane) (clock : ℕ) (q : Queue) (rs : List Issued) : Prop where
  fresh : ∀ r ∈ rs, r.seq < max q.next 1
  sorted : (rs.map Issued.seq).Pairwise (· < ·)
  messages : ∀ m ∈ q.messages, ⟨m.seq, m.receivedAt⟩ ∈ rs
  taken : ∀ t ∈ q.taken, ⟨t.seq, t.receivedAt⟩ ∈ rs
  apart : ∀ m ∈ q.messages, ∀ t ∈ q.taken, m.seq ≠ t.seq
  kept : ∀ r ∈ rs, clock < lane.keptUntil r.receivedAt →
    (∃ m ∈ q.messages, m.seq = r.seq) ∨ ∃ t ∈ q.taken, t.seq = r.seq

theorem kept_nil (lane : Lane) (clock : ℕ) : Kept lane clock ⟨1, [], []⟩ [] := by
  refine ⟨?_, ?_, ?_, ?_, ?_, ?_⟩ <;> simp

namespace Kept

variable {lane : Lane} {clock : ℕ} {q : Queue} {rs : List Issued}

section

variable (h : Kept lane clock q rs)
include h

/-- A sequence is of one request. -/
theorem eq_of_seq {r r' : Issued} (hr : r ∈ rs) (hr' : r' ∈ rs) (heq : r.seq = r'.seq) : r = r' := by
  have hnodup : (rs.map Issued.seq).Nodup := h.sorted.imp fun hlt => Nat.ne_of_lt hlt
  exact List.inj_on_of_nodup_map hnodup hr hr' heq

theorem later {clock' : ℕ} (hle : clock ≤ clock') : Kept lane clock' q rs :=
  { h with kept := fun r hr hlt => h.kept r hr (hle.trans_lt hlt) }

/-- Reading a queue leaves out only what is too old. -/
theorem read : Kept lane clock (q.read lane clock) rs := by
  refine ⟨?_, h.sorted, ?_, ?_, ?_, ?_⟩
  · intro r hr
    have hlt := h.fresh r hr
    show r.seq < max (max q.next 1) 1
    omega
  · intro m hm
    exact h.messages m (List.mem_of_mem_filter hm)
  · intro t ht
    exact h.taken t (List.mem_of_mem_filter ht)
  · intro m hm t ht
    exact h.apart m (List.mem_of_mem_filter hm) t (List.mem_of_mem_filter ht)
  · intro r hr hlt
    rcases h.kept r hr hlt with ⟨m, hm, heq⟩ | ⟨t, ht, heq⟩
    · -- the entry is the request's own, so it is as young
      have hown : ⟨m.seq, m.receivedAt⟩ = r := h.eq_of_seq (h.messages m hm) hr heq
      have hat : m.receivedAt = r.receivedAt := congrArg Issued.receivedAt hown
      exact .inl ⟨m, List.mem_filter.mpr ⟨hm, by rw [hat]; exact decide_eq_true hlt⟩, heq⟩
    · have hown : ⟨t.seq, t.receivedAt⟩ = r := h.eq_of_seq (h.taken t ht) hr heq
      have hat : t.receivedAt = r.receivedAt := congrArg Issued.receivedAt hown
      exact .inr ⟨t, List.mem_filter.mpr ⟨ht, by rw [hat]; exact decide_eq_true hlt⟩, heq⟩

/-- A request joins at the next sequence. -/
theorem snoc (hnext : 1 ≤ q.next) (sealedText : String) :
    Kept lane clock { q with next := q.next + 1, messages := q.messages ++ [⟨q.next, sealedText, clock⟩] }
      (rs ++ [⟨q.next, clock⟩]) := by
  have hbelow : ∀ r ∈ rs, r.seq < q.next := by
    intro r hr
    have hlt := h.fresh r hr
    have hmax : max q.next 1 = q.next := by omega
    rw [hmax] at hlt
    exact hlt
  refine ⟨?_, ?_, ?_, ?_, ?_, ?_⟩
  · intro r hr
    show r.seq < max (q.next + 1) 1
    rcases List.mem_snoc.mp hr with hold | rfl
    · have hlt := hbelow r hold
      omega
    · show q.next < _
      omega
  · rw [List.map_append, List.pairwise_append]
    refine ⟨h.sorted, List.pairwise_singleton _ _, ?_⟩
    intro a ha b hb
    obtain ⟨r, hr, rfl⟩ := List.mem_map.mp ha
    rw [List.mem_singleton.mp hb]
    exact hbelow r hr
  · intro m hm
    rcases List.mem_snoc.mp hm with hold | rfl
    · exact List.mem_append_left _ (h.messages m hold)
    · exact List.mem_concat_self
  · intro t ht
    exact List.mem_append_left _ (h.taken t ht)
  · intro m hm t ht
    rcases List.mem_snoc.mp hm with hold | rfl
    · exact h.apart m hold t ht
    · have hlt := hbelow _ (h.taken t ht)
      exact Nat.ne_of_gt hlt
  · intro r hr hlt
    rcases List.mem_snoc.mp hr with hold | rfl
    · refine (h.kept r hold hlt).imp_left ?_
      rintro ⟨m, hm, heq⟩
      exact ⟨m, List.mem_append_left _ hm, heq⟩
    · exact .inl ⟨_, List.mem_concat_self, rfl⟩

theorem append {q' : Queue} {sealedText : String} (happend : q.append lane sealedText clock = some q') :
    Kept lane clock q' (rs ++ [⟨(q.read lane clock).next, clock⟩]) := by
  unfold Queue.append at happend
  dsimp only at happend
  split at happend
  · cases happend
  · have hnext : 1 ≤ (q.read lane clock).next := Nat.le_max_right _ _
    rw [← Option.some.inj happend]
    exact h.read.snoc hnext sealedText

/-- What was handled goes from what waits to what was taken. -/
theorem ack {q' : Queue} {upTo : ℕ} (hack : q.ack lane upTo clock = some q') : Kept lane clock q' rs := by
  have hread := h.read
  unfold Queue.ack at hack
  dsimp only at hack
  generalize q.read lane clock = p at hread hack
  split at hack
  · cases hack
  · rw [← Option.some.inj hack]
    have hmessage : ∀ m ∈ p.messages.filter fun m => !decide (m.seq ≤ upTo), m ∈ p.messages ∧ upTo < m.seq := by
      intro m hm
      obtain ⟨hmem, hseq⟩ := List.mem_filter.mp hm
      exact ⟨hmem, by simpa using hseq⟩
    have htaken : ∀ t ∈ p.taken ++ (p.messages.filter fun m => m.seq ≤ upTo).map fun m => ⟨m.seq, m.receivedAt⟩,
        t ∈ p.taken ∨ ∃ m ∈ p.messages, m.seq ≤ upTo ∧ t = ⟨m.seq, m.receivedAt⟩ := by
      intro t ht
      rcases List.mem_append.mp ht with hold | hnew
      · exact .inl hold
      · obtain ⟨m, hm, rfl⟩ := List.mem_map.mp hnew
        obtain ⟨hmem, hseq⟩ := List.mem_filter.mp hm
        exact .inr ⟨m, hmem, of_decide_eq_true hseq, rfl⟩
    refine ⟨hread.fresh, hread.sorted, ?_, ?_, ?_, ?_⟩
    · intro m hm
      exact hread.messages m (hmessage m hm).1
    · intro t ht
      rcases htaken t ht with hold | ⟨m, hm, -, rfl⟩
      · exact hread.taken t hold
      · exact hread.messages m hm
    · intro m hm t ht
      obtain ⟨hmem, hlt⟩ := hmessage m hm
      rcases htaken t ht with hold | ⟨m', hm', hle, rfl⟩
      · exact hread.apart m hmem t hold
      · show m.seq ≠ m'.seq
        omega
    · intro r hr hlt
      rcases hread.kept r hr hlt with ⟨m, hm, heq⟩ | ⟨t, ht, heq⟩
      · by_cases hle : m.seq ≤ upTo
        · refine .inr ⟨⟨m.seq, m.receivedAt⟩, List.mem_append_right _ (List.mem_map.mpr ⟨m, ?_, rfl⟩), heq⟩
          exact List.mem_filter.mpr ⟨hm, decide_eq_true hle⟩
        · refine .inl ⟨m, List.mem_filter.mpr ⟨hm, ?_⟩, heq⟩
          rw [decide_eq_false hle]
          rfl
      · exact .inr ⟨t, List.mem_append_left _ ht, heq⟩

end

end Kept

/-! ## Every queue -/

variable {s : State}

/-- Every queue keeps what it issued, and a queue without a file has issued nothing. -/
def Whole (s : State) : Prop := ∀ key, Kept key.lane s.clock (s.stored key) (s.requests key)

theorem stored_set (s : State) (key key' : Key) (q : Queue) :
    ({ s with files := Assoc.set s.files key q } : State).stored key' =
      if key' = key then q else s.stored key' := by
  unfold State.stored
  rw [Assoc.get_set]
  split_ifs <;> rfl

theorem append_whole (h : Whole s) (ask : Ask) : Whole (append s ask) := by
  unfold append
  split
  · exact h
  next q hq =>
    intro key
    have hkept := h key
    show Kept key.lane s.clock ((Assoc.get (Assoc.set s.files ask.key q) key).getD _)
      ((Assoc.get (Assoc.set s.issued ask.key _) key).getD [])
    rw [Assoc.get_set, Assoc.get_set]
    by_cases hkey : key = ask.key
    · subst hkey
      rw [if_pos rfl, if_pos rfl]
      exact hkept.append hq
    · rw [if_neg hkey, if_neg hkey]
      exact hkept

theorem ack_whole (h : Whole s) (key : Key) (upTo : ℕ) : Whole (ack s key upTo) := by
  unfold ack
  split
  · exact h
  next q hq =>
    intro key'
    have hkept := h key'
    show Kept key'.lane s.clock (({ s with files := Assoc.set s.files key q } : State).stored key')
      (s.requests key')
    rw [stored_set]
    split_ifs with hkey
    · subst hkey
      exact hkept.ack hq
    · exact hkept

theorem step_whole (h : Whole s) (e : Event) : Whole (step s e) := by
  cases e with dsimp only [step]
  | tick ms =>
    intro key
    exact (h key).later (Nat.le_add_right _ _)
  | ask =>
    repeat' split
    all_goals exact h
  | append i =>
    split
    · exact append_whole (s := { s with asking := s.asking.eraseIdx i }) h _
    · exact h
  | drain | deleteLibrary =>
    split <;> exact h
  | ack _ _ _ upTo =>
    split
    · exact ack_whole h _ upTo
    · exact h
  | deleteNext =>
    split
    next library lane lanes _ =>
      intro key
      have hkept := h key
      show Kept key.lane s.clock ((Assoc.get (Assoc.erase s.files ⟨library, lane⟩) key).getD _)
        ((Assoc.get (Assoc.erase s.issued ⟨library, lane⟩) key).getD [])
      rw [Assoc.get_erase, Assoc.get_erase]
      split_ifs
      · exact kept_nil key.lane s.clock
      · exact hkept
    next => exact h
    next => exact h
  | restart => exact h

variable {key : Key}

/-- A request is in one place. -/
theorem Whole.one (h : Whole s) {r : Issued} (hr : r ∈ s.requests key) :
    (s.Queued key r ∧ ¬ s.IsTaken key r ∧ ¬ s.Expired key r) ∨
      (¬ s.Queued key r ∧ s.IsTaken key r ∧ ¬ s.Expired key r) ∨
      (¬ s.Queued key r ∧ ¬ s.IsTaken key r ∧ s.Expired key r) := by
  have hkept := h key
  have hread := hkept.read
  -- what is read is young, and so is the request it is of
  have hyoung : s.Queued key r ∨ s.IsTaken key r → ¬ s.Expired key r := by
    rintro (⟨m, hm, heq⟩ | ⟨t, ht, heq⟩)
    · obtain rfl := hkept.eq_of_seq (hread.messages m hm) hr heq
      exact not_le.mpr (of_decide_eq_true (List.mem_filter.mp hm).2)
    · obtain rfl := hkept.eq_of_seq (hread.taken t ht) hr heq
      exact not_le.mpr (of_decide_eq_true (List.mem_filter.mp ht).2)
  have hone : s.Queued key r → ¬ s.IsTaken key r := by
    rintro ⟨m, hm, heq⟩ ⟨t, ht, heq'⟩
    exact hread.apart m hm t ht (heq.trans heq'.symm)
  by_cases hq : s.Queued key r
  · exact .inl ⟨hq, hone hq, hyoung (.inl hq)⟩
  · by_cases ht : s.IsTaken key r
    · exact .inr (.inl ⟨hq, ht, hyoung (.inr ht)⟩)
    · refine .inr (.inr ⟨hq, ht, not_lt.mp fun hlt => ?_⟩)
      rcases hread.kept r hr hlt with hq' | ht'
      · exact hq hq'
      · exact ht ht'

/-! ## What a step takes -/

theorem ack_taken {upTo seq : ℕ} {key' : Key} (h : ∃ t ∈ ((ack s key upTo).stored key').taken, t.seq = seq) :
    (∃ t ∈ (s.stored key').taken, t.seq = seq) ∨ (key' = key ∧ seq ≤ upTo) := by
  unfold ack at h
  split at h
  · exact .inl h
  next q hq =>
    rw [stored_set] at h
    split_ifs at h with hkey
    · subst hkey
      unfold Queue.ack at hq
      dsimp only at hq
      split at hq
      · cases hq
      · obtain ⟨t, ht, rfl⟩ := h
        rw [← Option.some.inj hq] at ht
        rcases List.mem_append.mp ht with hold | hnew
        · exact .inl ⟨t, List.mem_of_mem_filter hold, rfl⟩
        · obtain ⟨m, hm, rfl⟩ := List.mem_map.mp hnew
          exact .inr ⟨rfl, of_decide_eq_true (List.mem_filter.mp hm).2⟩
    · exact .inl h

theorem append_taken {ask : Ask} {seq : ℕ}
    (h : ∃ t ∈ ((append s ask).stored key).taken, t.seq = seq) : ∃ t ∈ (s.stored key).taken, t.seq = seq := by
  unfold append at h
  split at h
  · exact h
  next q hq =>
    obtain ⟨t, ht, rfl⟩ := h
    change t ∈ (({ s with files := Assoc.set s.files ask.key q } : State).stored key).taken at ht
    rw [stored_set] at ht
    split_ifs at ht with hkey
    · subst hkey
      unfold Queue.append at hq
      dsimp only at hq
      split at hq
      · cases hq
      · rw [← Option.some.inj hq] at ht
        exact ⟨t, List.mem_of_mem_filter ht, rfl⟩
    · exact ⟨t, ht, rfl⟩

/-- A request is taken by an ack that names it, and by nothing else. -/
theorem step_taken {e : Event} {seq : ℕ} (h : ∃ t ∈ ((step s e).stored key).taken, t.seq = seq) :
    (∃ t ∈ (s.stored key).taken, t.seq = seq) ∨
      ∃ queue tv upTo, e = .ack key.library queue tv upTo ∧ Lane.parse queue tv = .ok key.lane ∧ seq ≤ upTo := by
  cases e with dsimp only [step] at h
  | append i =>
    split at h
    · exact .inl (append_taken (s := { s with asking := s.asking.eraseIdx i }) h)
    · exact .inl h
  | drain =>
    split at h <;> exact .inl h
  | ack _ queue tv upTo =>
    split at h
    next lane hlane =>
      rcases ack_taken h with hold | ⟨hkey, hle⟩
      · exact .inl hold
      · subst hkey
        exact .inr ⟨queue, tv, upTo, rfl, hlane, hle⟩
    next => exact .inl h
  | deleteNext =>
    split at h
    next library lane lanes _ =>
      obtain ⟨t, ht, rfl⟩ := h
      change t ∈ ((Assoc.get (Assoc.erase s.files ⟨library, lane⟩) key).getD ⟨1, [], []⟩).taken at ht
      rw [Assoc.get_erase] at ht
      split_ifs at ht
      · cases ht
      · exact .inl ⟨t, ht, rfl⟩
    next => exact .inl h
    next => exact .inl h
  | _ =>
    repeat' split at h
    all_goals exact .inl h

/-! ## Deletions -/

/-- What a deletion is still to delete is all that there is of the library. -/
def Leaving (s : State) : Prop :=
  ∀ library lanes, s.deleting = some (library, lanes) →
    ∀ lane q, Assoc.get s.files ⟨library, lane⟩ = some q → lane ∈ lanes

theorem step_leaving (h : Leaving s) {e : Event} (hremembered : Remembered s e) : Leaving (step s e) := by
  cases e with dsimp only [step]
  | tick ms => exact h
  | ask =>
    repeat' split
    all_goals exact h
  | append i =>
    split
    next ask hnone _ =>
      -- nothing is being deleted
      intro library lanes hdeleting
      have hsame : (append { s with asking := s.asking.eraseIdx i } ask).deleting = s.deleting := by
        unfold append
        split <;> rfl
      rw [hsame, hnone] at hdeleting
      cases hdeleting
    · exact h
  | drain =>
    split <;> exact h
  | ack library _ _ upTo =>
    split
    next lane hnone _ =>
      intro library' lanes hdeleting
      have hsame : (ack s ⟨library, lane⟩ upTo).deleting = s.deleting := by
        unfold ack
        split <;> rfl
      rw [hsame, hnone] at hdeleting
      cases hdeleting
    · exact h
  | deleteLibrary =>
    split
    next hnone =>
      intro library' lanes hdeleting lane q hget
      obtain ⟨rfl, rfl⟩ := Prod.mk.inj (Option.some.inj hdeleting)
      exact hremembered hnone _ (Assoc.mem_of_get hget) rfl
    · exact h
  | deleteNext =>
    split
    next library lane lanes hdeleting =>
      intro library' lanes' hdeleting' lane' q hget
      obtain ⟨rfl, rfl⟩ := Prod.mk.inj (Option.some.inj hdeleting')
      rw [Assoc.get_erase] at hget
      split_ifs at hget with heq
      rcases List.mem_cons.mp (h library _ hdeleting lane' q hget) with rfl | hmem
      · exact absurd rfl heq
      · exact hmem
    · intro library' lanes' hdeleting'
      cases hdeleting'
    · exact h
  | restart =>
    intro library lanes hdeleting
    cases hdeleting

/-- **Assistant queues neither lose nor invent requests, and go with their library.** In every run of appends,
drains, acks, expiries, restarts and deletions in which a library's deletion finds every lane with a file among
the TVs that were seen: the sequences of a lane increase, and are not reused before its file is deleted; each
request is in one of queued, taken and expired; a request becomes taken by an ack of its lane that reaches it; a
full lane refuses and keeps what it has; and when a deletion is done no queue of the library is left. -/
theorem queues_go_with_their_library (es : List Event) (hmeets : Run.Meets step Remembered init es) :
    (∀ key, (((Run.exec step init es).requests key).map Issued.seq).Pairwise (· < ·)) ∧
    (∀ key r, r ∈ (Run.exec step init es).requests key →
      let s := Run.exec step init es
      (s.Queued key r ∧ ¬ s.IsTaken key r ∧ ¬ s.Expired key r) ∨
        (¬ s.Queued key r ∧ s.IsTaken key r ∧ ¬ s.Expired key r) ∨
        (¬ s.Queued key r ∧ ¬ s.IsTaken key r ∧ s.Expired key r)) ∧
    (∀ e key seq, (∃ t ∈ ((Run.exec step init (es ++ [e])).stored key).taken, t.seq = seq) →
      (∃ t ∈ ((Run.exec step init es).stored key).taken, t.seq = seq) ∨
        ∃ queue tv upTo, e = .ack key.library queue tv upTo ∧ Lane.parse queue tv = .ok key.lane ∧ seq ≤ upTo) ∧
    (∀ (i : ℕ) (ask : Ask), (Run.exec step init es).asking[i]? = some ask →
      ask.key.lane.max ≤ ((Run.exec step init es).queue ask.key).messages.length →
      (Run.exec step init (es ++ [.append i])).files = (Run.exec step init es).files) ∧
    (∀ library, (Run.exec step init es).deleting = some (library, []) →
      ∀ lane, Assoc.get (Run.exec step init es).files ⟨library, lane⟩ = none) := by
  have hwhole : Whole (Run.exec step init es) :=
    Run.exec_inv_all (I := Whole) (fun _ e h => step_whole h e) es fun key => kept_nil key.lane 0
  have hleaving : Leaving (Run.exec step init es) := by
    refine Run.exec_inv (I := Leaving) (fun _ _ h hr => step_leaving h hr) ?_ hmeets
    intro library lanes hdeleting
    cases hdeleting
  refine ⟨fun key => (hwhole key).sorted, fun key r hr => hwhole.one hr, ?_, ?_, ?_⟩
  · intro e key seq h
    rw [Run.exec_append] at h
    exact step_taken h
  · intro i ask hask hfull
    rw [Run.exec_append]
    show (step (Run.exec step init es) (.append i)).files = _
    generalize Run.exec step init es = s at hask hfull
    have hnone : (s.stored ask.key).append ask.key.lane ask.sealedText s.clock = none := if_pos hfull
    dsimp only [step]
    split
    next ask' _ hask' =>
      obtain rfl : ask = ask' := Option.some.inj (hask.symm.trans hask')
      have hsame : append { s with asking := s.asking.eraseIdx i } ask =
          { s with asking := s.asking.eraseIdx i } := by
        unfold append
        split
        · rfl
        next q hq => cases hnone.symm.trans hq
      rw [hsame]
    · rfl
  · intro library hdeleting lane
    cases hget : Assoc.get (Run.exec step init es).files ⟨library, lane⟩ with
    | none => rfl
    | some q => exact absurd (hleaving library [] hdeleting lane q hget) List.not_mem_nil

/-! ## Samples -/

def sampleTv : String := "0123456789abcdef0123456789abcdef"

/-- A TV drains its lane, two requests are queued for it, the first is taken, and the library is deleted. -/
def sampleRun : List Event :=
  [.drain "lib" (some "tv") (some sampleTv) none, .ask "lib" (some "tv") (some sampleTv) "a" false,
    .ask "lib" (some "tv") (some sampleTv) "b" false, .append 0, .append 0,
    .ack "lib" (some "tv") (some sampleTv) 1, .deleteLibrary "lib", .deleteNext, .deleteNext, .deleteNext]

theorem queues_go_with_their_library_sample :
    Run.Meets step Remembered init sampleRun ∧
    (Run.exec step init (sampleRun.take 6)).files =
      [(⟨"lib", .tv (some sampleTv)⟩, ⟨3, [⟨2, "b", 0⟩], [⟨1, 0⟩]⟩)] ∧
    (Run.exec step init sampleRun).deleting = some ("lib", []) ∧
    Assoc.get (Run.exec step init sampleRun).files ⟨"lib", .tv (some sampleTv)⟩ = none := by
  have hmeets : Run.Meets step Remembered init sampleRun := by decide +kernel
  have hdeleting : (Run.exec step init sampleRun).deleting = some ("lib", []) := by decide +kernel
  obtain ⟨-, -, -, -, hgone⟩ := queues_go_with_their_library sampleRun hmeets
  exact ⟨hmeets, by decide +kernel, hdeleting, hgone "lib" hdeleting _⟩

/-- **A lane outlives its library.** The server restarts after a TV's request was queued; the deletion of the
library knows of no TV, and the lane's file is left. -/
theorem forgotten_lane_is_left :
    let s := Run.exec step init
      [.drain "lib" (some "tv") (some sampleTv) none, .ask "lib" (some "tv") (some sampleTv) "a" false,
       .append 0, .restart,
        .deleteLibrary "lib", .deleteNext, .deleteNext]
    s.deleting = some ("lib", []) ∧
      Assoc.get s.files ⟨"lib", .tv (some sampleTv)⟩ = some ⟨2, [⟨1, "a", 0⟩], []⟩ := by
  decide +kernel

end DenEdge.Assistant
