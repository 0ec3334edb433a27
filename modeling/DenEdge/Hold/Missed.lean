import DenEdge.Hold.Model

/-!
# No held read misses a commit

A reader takes its place before it reads the head. So a commit it did not see came after it had its place, and the
batch that made it will wake that place, unless the batch is gone before it does. The invariant says for each
reader that has read a head: its place has a permit, or the head it read is the library's, or a batch that is
still running has committed rows and not woken the library yet.
-/

namespace DenEdge.Hold

/-! ## Places -/

namespace Holds

variable (id : ℕ) (w : List (String × List ℕ)) (key : String)

/-- The places under a key once one has been put under distinct keys. -/
theorem get_foldl_push (keys : List String) (hkeys : keys.Nodup) :
    Assoc.get (keys.foldl (fun w key => Assoc.set w key ((Assoc.get w key).getD [] ++ [id])) w) key =
      if key ∈ keys then some ((Assoc.get w key).getD [] ++ [id]) else Assoc.get w key := by
  induction keys generalizing w with
  | nil => simp
  | cons k keys ih =>
    obtain ⟨hk, hkeys⟩ := List.nodup_cons.mp hkeys
    rw [List.foldl_cons, ih _ hkeys, Assoc.get_set]
    by_cases hkey : key = k
    · subst hkey
      simp [hk]
    · simp [hkey]

/-- The places under a key that are kept; none where no place is. -/
def kept (keep : ℕ → Bool) (ids : Option (List ℕ)) : Option (List ℕ) :=
  (ids.map (List.filter keep)).filter (· ≠ [])

theorem kept_some (keep : ℕ → Bool) (ids : List ℕ) :
    kept keep (some ids) = if ids.filter keep = [] then none else some (ids.filter keep) := by
  rw [kept, Option.map_some]
  by_cases hempty : ids.filter keep = [] <;> simp [hempty]

theorem kept_kept (keep : ℕ → Bool) (ids : Option (List ℕ)) : kept keep (kept keep ids) = kept keep ids := by
  cases ids with
  | none => rfl
  | some ids =>
    rw [kept_some]
    split_ifs with hempty
    · rfl
    · rw [kept_some]
      simp [hempty]

theorem mem_kept {keep : ℕ → Bool} {x : ℕ} {ids : Option (List ℕ)} :
    x ∈ (kept keep ids).getD [] ↔ keep x = true ∧ x ∈ ids.getD [] := by
  cases ids with
  | none => simp [kept]
  | some ids =>
    have hmem : x ∈ (kept keep (some ids)).getD [] ↔ x ∈ ids.filter keep := by
      rw [kept_some]
      split_ifs with hempty
      · rw [hempty]
        rfl
      · rfl
    rw [hmem, List.mem_filter, and_comm]
    rfl

theorem get_remove (k : String) :
    Assoc.get (remove id w k) key = if key = k then kept (· ≠ id) (Assoc.get w k) else Assoc.get w key := by
  unfold remove
  cases hk : Assoc.get w k with
  | none =>
    split_ifs with hkey
    · rw [hkey, hk]
      rfl
    · rfl
  | some ids =>
    rw [kept_some]
    dsimp only
    split_ifs <;> simp [Assoc.get_erase, Assoc.get_set, *]

theorem get_foldl_remove (keys : List String) :
    Assoc.get (keys.foldl (remove id) w) key =
      if key ∈ keys then kept (· ≠ id) (Assoc.get w key) else Assoc.get w key := by
  induction keys generalizing w with
  | nil => simp
  | cons k keys ih =>
    rw [List.foldl_cons, ih, get_remove]
    by_cases hkey : key = k
    · subst hkey
      simp only [if_true, List.mem_cons, true_or, kept_kept, ite_self]
    · simp [hkey]

variable {id w key}

/-- What a place taken changes: it is under its keys, and nothing else moves. -/
theorem hold_spec {h h' : Holds} {owner : String} {keys : List String} (hkeys : keys.Nodup)
    (hold : h.hold owner keys = some (id, h')) :
    id = h.next + 1 ∧ h'.next = id ∧ h'.permits = h.permits ∧
      ∀ x key, x ∈ h'.waitingOn key ↔ x ∈ h.waitingOn key ∨ (x = id ∧ key ∈ keys) := by
  unfold Holds.hold at hold
  split_ifs at hold
  obtain ⟨rfl, rfl⟩ := Prod.mk.inj (Option.some.inj hold)
  refine ⟨rfl, rfl, rfl, fun x key => ?_⟩
  rw [waitingOn, get_foldl_push _ _ _ _ hkeys]
  by_cases hkey : key ∈ keys <;> simp [hkey, waitingOn]

/-- A place given back leaves every other one where it was. -/
theorem drop_spec (h : Holds) (id : ℕ) (owner : String) (keys : List String) :
    (h.drop id owner keys).next = h.next ∧
      ∀ x, x ≠ id → (x ∈ (h.drop id owner keys).permits ↔ x ∈ h.permits) ∧
        ∀ key, x ∈ (h.drop id owner keys).waitingOn key ↔ x ∈ h.waitingOn key := by
  unfold drop
  cases Assoc.get h.active id with
  | none => exact ⟨rfl, fun x _ => ⟨Iff.rfl, fun _ => Iff.rfl⟩⟩
  | some _ =>
    refine ⟨rfl, fun x hx => ⟨by simp [hx], fun key => ?_⟩⟩
    rw [waitingOn, get_foldl_remove]
    split_ifs
    · rw [mem_kept]
      exact and_iff_right (decide_eq_true hx)
    · rfl

end Holds

/-! ## The invariant -/

/-- The head a reader has read since it took its place. -/
def Reader.saw (r : Reader) : Option ℕ :=
  match r.phase with
  | .looked p => some p.head
  | .waiting head => some head
  | _ => none

/-- A reader's place has a permit, or what it read is the head, or it will be woken. -/
def State.Fresh (s : State) (r : Reader) : Prop :=
  ∀ id head, r.place = some id → r.saw = some head → id ∉ s.holds.permits →
    s.head r.library ≤ head ∨ s.Wakes r.library

structure Good (s : State) : Prop where
  placed : ∀ (i : ℕ) (r : Reader) (id : ℕ), s.readers[i]? = some r → r.place = some id →
    id ∈ s.holds.waitingOn r.library ∧ id ≤ s.holds.next
  apart : ∀ (i j : ℕ) (r r' : Reader) (id : ℕ), s.readers[i]? = some r → s.readers[j]? = some r' →
    r.place = some id → r'.place = some id → i = j
  waits : ∀ (i : ℕ) (r : Reader) (head : ℕ), s.readers[i]? = some r → r.phase = .waiting head →
    ∃ id, r.place = some id
  fresh : ∀ (i : ℕ) (r : Reader), s.readers[i]? = some r → s.Fresh r
  /-- A batch that is gone owes nothing. -/
  settled : ∀ b ∈ s.batches, b.running = false → b.owes = false

theorem good_init (maxTotal maxPerOwner : ℕ) : Good (init maxTotal maxPerOwner) := by
  refine ⟨?_, ?_, ?_, ?_, ?_⟩ <;> simp [init]

variable {r : Reader} {s : State} {i : ℕ}

/-- A reader stays fresh where its permit stays, where the head moves only under a wake to come, and where a wake
that was to come is still to come, or has come. -/
theorem State.Fresh.mono {s' : State} (h : s.Fresh r)
    (hpermits : ∀ id, r.place = some id → id ∈ s.holds.permits → id ∈ s'.holds.permits)
    (hhead : s'.head r.library ≤ s.head r.library ∨ s'.Wakes r.library)
    (hwakes : s.Wakes r.library → s'.Wakes r.library ∨ ∀ id, r.place = some id → id ∈ s'.holds.permits) :
    s'.Fresh r := by
  intro id head hplace hsaw hpermit
  rcases hhead with hhead | hwake
  · rcases h id head hplace hsaw fun hp => hpermit (hpermits id hplace hp) with hle | hwake
    · exact .inl (hhead.trans hle)
    · rcases hwakes hwake with hwake' | hp
      · exact .inr hwake'
      · exact absurd (hp id hplace) hpermit
  · exact .inr hwake

section

variable (h : Good s)
include h

/-- One reader goes on, and the places of the others stay as they are. -/
theorem Good.reader (r' : Reader) {holds' : Holds} (hi : s.readers[i]? = some r)
    (hnext : s.holds.next ≤ holds'.next) (hothers : ∀ id, r.place ≠ some id → id ≤ s.holds.next →
      (id ∈ s.holds.permits → id ∈ holds'.permits) ∧
        ∀ key, id ∈ s.holds.waitingOn key → id ∈ holds'.waitingOn key) (hplaced : ∀ id, r'.place = some id →
      id ∈ holds'.waitingOn r'.library ∧ id ≤ holds'.next ∧ (r.place = some id ∨ s.holds.next < id))
    (hwaits : ∀ head, r'.phase = .waiting head → ∃ id, r'.place = some id)
    (hfresh : ({ s with holds := holds', readers := s.readers.set i r' } : State).Fresh r') :
    Good { s with holds := holds', readers := s.readers.set i r' } := by
  have hlen : i < s.readers.length := (List.getElem?_eq_some_iff.mp hi).1
  -- a reader of the new state is the one that went on, or another one as it was, at a place of its own
  have hcases : ∀ (j : ℕ) (q : Reader), (s.readers.set i r')[j]? = some q →
      (j = i ∧ q = r') ∨ (j ≠ i ∧ s.readers[j]? = some q ∧ ∀ id, q.place = some id → r.place ≠ some id) := by
    intro j q hj
    rw [List.getElem?_set] at hj
    by_cases hij : i = j
    · rw [if_pos hij, if_pos hlen] at hj
      exact .inl ⟨hij.symm, (Option.some.inj hj).symm⟩
    · rw [if_neg hij] at hj
      exact .inr ⟨fun hji => hij hji.symm, hj, fun id hq hr => hij (h.apart i j r q id hi hj hr hq)⟩
  refine ⟨?_, ?_, ?_, ?_, h.settled⟩
  · intro j q id hj hq
    rcases hcases j q hj with ⟨-, rfl⟩ | ⟨-, hj', hne⟩
    · exact ⟨(hplaced id hq).1, (hplaced id hq).2.1⟩
    · obtain ⟨hmem, hle⟩ := h.placed j q id hj' hq
      exact ⟨(hothers id (hne id hq) hle).2 _ hmem, hle.trans hnext⟩
  · intro j k q q' id hj hk hq hq'
    have hnew : ∀ (k : ℕ) (q' : Reader), s.readers[k]? = some q' → q'.place = some id →
        (∀ id, q'.place = some id → r.place ≠ some id) → r'.place ≠ some id := by
      intro k q' hk' hq' hne hr'
      rcases (hplaced id hr').2.2 with hr | hlt
      · exact hne id hq' hr
      · exact absurd (h.placed k q' id hk' hq').2 (by omega)
    rcases hcases j q hj with ⟨hji, rfl⟩ | ⟨hji, hj', hne⟩ <;> rcases hcases k q' hk with
      ⟨hki, rfl⟩ | ⟨hki, hk', hne'⟩
    · rw [hji, hki]
    · exact absurd hq (hnew k q' hk' hq' hne')
    · exact absurd hq' (hnew j q hj' hq hne)
    · exact h.apart j k q q' id hj' hk' hq hq'
  · intro j q head hj hphase
    rcases hcases j q hj with ⟨-, rfl⟩ | ⟨-, hj', -⟩
    · exact hwaits head hphase
    · exact h.waits j q head hj' hphase
  · intro j q hj
    rcases hcases j q hj with ⟨-, rfl⟩ | ⟨-, hj', hne⟩
    · exact hfresh
    · refine (h.fresh j q hj').mono (fun id hq hp => ?_) (.inl le_rfl) .inl
      exact (hothers id (hne id hq) (h.placed j q id hj' hq).2).1 hp

variable {libraries : List (String × Protocol)}

/-- The batches and the libraries go on, and no place changes. -/
theorem Good.world {holds : Holds} {batches : List Batch}
    (hwaiting : ∀ key, holds.waitingOn key = s.holds.waitingOn key) (hnext : holds.next = s.holds.next)
    (hfresh : ∀ (i : ℕ) (r : Reader), s.readers[i]? = some r →
      ({ s with holds := holds, libraries := libraries, batches := batches } : State).Fresh r)
    (hsettled : ∀ b ∈ batches, b.running = false → b.owes = false) :
    Good { s with holds := holds, libraries := libraries, batches := batches } := by
  refine { h with placed := fun i r id hi hplace => ?_, fresh := hfresh, settled := hsettled }
  dsimp only
  rw [hwaiting, hnext]
  exact h.placed i r id hi hplace

/-! ## The readers' steps -/

/-- A reader goes on and keeps its place. -/
theorem Good.setReader (hi : s.readers[i]? = some r) (phase : Reading)
    (hwaits : ∀ head, phase = .waiting head → ∃ id, r.place = some id)
    (hfresh : s.Fresh { r with phase := phase }) : Good (s.setReader i { r with phase := phase }) := by
  refine h.reader { r with phase := phase } hi le_rfl (fun _ _ _ => ⟨id, fun _ => id⟩) ?_ hwaits hfresh
  intro id hplace
  exact ⟨(h.placed i r id hi hplace).1, (h.placed i r id hi hplace).2, .inl hplace⟩

/-- A reader goes on without its place. -/
theorem Good.release (hi : s.readers[i]? = some r) {phase : Reading}
    (hphase : ∀ head, phase ≠ .waiting head) : Good (s.release i r phase) := by
  unfold State.release
  have hnone : ∀ id, ({ r with place := none, phase := phase } : Reader).place ≠ some id :=
    fun id hp => nomatch hp
  cases hplace : r.place with
  | none =>
    exact h.reader { r with place := none, phase := phase } hi le_rfl (fun _ _ _ => ⟨id, fun _ => id⟩)
      (fun id hp => absurd hp (hnone id)) (fun head hp => absurd hp (hphase head))
      (fun id _ hp => absurd hp (hnone id))
  | some id =>
    obtain ⟨hnext, hothers⟩ := s.holds.drop_spec id r.library [r.library]
    refine h.reader { r with place := none, phase := phase } hi hnext.ge (fun x hx _ => ?_)
      (fun id hp => absurd hp (hnone id)) (fun head hp => absurd hp (hphase head))
      (fun id _ hp => absurd hp (hnone id))
    have hne : x ≠ id := fun hxid => hx (hplace.trans (congrArg some hxid.symm))
    exact ⟨(hothers x hne).1.mpr, fun key => ((hothers x hne).2 key).mpr⟩

/-- A reader takes a place under its library, before it has read anything. -/
theorem register_good (hi : s.readers[i]? = some r) : Good (register s i r) := by
  unfold register
  cases hhold : s.holds.hold r.library [r.library] with
  | none =>
    refine h.setReader hi .registered (fun head hp => by cases hp) ?_
    intro id head _ hsaw
    cases hsaw
  | some taken =>
    obtain ⟨id, holds'⟩ := taken
    obtain ⟨hid, hnext, hpermits, hwaiting⟩ := Holds.hold_spec (List.nodup_singleton _) hhold
    refine h.reader { r with place := some id, phase := .registered } hi (by omega) ?_ ?_
      (fun head hp => by cases hp) ?_
    · intro x _ _
      exact ⟨fun hp => hpermits ▸ hp, fun key hx => (hwaiting x key).mpr (.inl hx)⟩
    · intro x hx
      obtain rfl : id = x := Option.some.inj hx
      exact ⟨(hwaiting id r.library).mpr (.inr ⟨rfl, by simp⟩), by omega, .inr (by omega)⟩
    · intro x head _ hsaw
      cases hsaw

theorem Good.arrive (library : String) (since : ℕ) (generation : Option String) :
    Good { s with readers := s.readers ++ [⟨library, since, generation, none, .arrived⟩] } := by
  -- the new reader has no place and has read nothing
  have hcases : ∀ (j : ℕ) (q : Reader),
      (s.readers ++ [⟨library, since, generation, none, .arrived⟩])[j]? = some q →
      s.readers[j]? = some q ∨ q = ⟨library, since, generation, none, .arrived⟩ := by
    intro j q hj
    rw [List.getElem?_append] at hj
    split_ifs at hj
    · exact .inl hj
    · exact .inr (List.mem_singleton.mp (List.mem_of_getElem? hj))
  refine ⟨?_, ?_, ?_, ?_, h.settled⟩
  · intro j q id hj hq
    rcases hcases j q hj with hj' | rfl
    · exact h.placed j q id hj' hq
    · cases hq
  · intro j k q q' id hj hk hq hq'
    rcases hcases j q hj with hj' | rfl
    · rcases hcases k q' hk with hk' | rfl
      · exact h.apart j k q q' id hj' hk' hq hq'
      · cases hq'
    · cases hq
  · intro j q head hj hphase
    rcases hcases j q hj with hj' | rfl
    · exact h.waits j q head hj' hphase
    · cases hphase
  · intro j q hj
    rcases hcases j q hj with hj' | rfl
    · exact h.fresh j q hj'
    · intro id head hq
      cases hq

omit h in
/-- A reader reads the head as it is. -/
theorem look_fresh {p : Protocol} (hget : Assoc.get s.libraries r.library = some p) :
    s.Fresh { r with phase := .looked p } := by
  intro id head _ hsaw _
  obtain rfl : p.head = head := Option.some.inj hsaw
  left
  show ((Assoc.get s.libraries r.library).map Protocol.head).getD 0 ≤ p.head
  rw [hget]
  exact le_rfl

/-! ## The batches' steps -/

variable {b : Batch} {j : ℕ}

theorem settled_set (j : ℕ) (hb : b.running = false → b.owes = false) :
    ∀ b' ∈ s.batches.set j b, b'.running = false → b'.owes = false := by
  intro b' hb' hrunning
  rcases List.mem_or_eq_of_mem_set hb' with hmem | rfl
  · exact h.settled b' hmem hrunning
  · exact hb hrunning

omit h in
/-- A wake to come is still to come where another batch goes on. -/
theorem wakes_set {b' : Batch} {library : String} (hj : s.batches[j]? = some b) (hwakes : s.Wakes library)
    (hnot : ¬ b.Wakes library) : ∃ c ∈ s.batches.set j b', c.Wakes library := by
  obtain ⟨c, hc, hwake⟩ := hwakes
  obtain ⟨k, hk⟩ := List.getElem?_of_mem hc
  have hjk : j ≠ k := by
    rintro rfl
    rw [hj] at hk
    exact hnot (Option.some.inj hk ▸ hwake)
  refine ⟨c, List.mem_of_getElem? (i := k) ?_, hwake⟩
  rw [List.getElem?_set, if_neg hjk]
  exact hk

/-- The commit of a batch that has its future: either nothing was written, or the batch will wake the library. -/
theorem commit_good {applied : ℕ} (hj : s.batches[j]? = some b) (hphase : b.phase = .handed)
    (hother : ∀ key, key ≠ b.library → Assoc.get libraries key = Assoc.get s.libraries key)
    (hown : applied = 0 → ((Assoc.get libraries b.library).map Protocol.head).getD 0 ≤ s.head b.library) :
    Good { s.setBatch j { b with phase := .committed applied } with libraries := libraries } := by
  have hrunning : b.running = true := by
    by_contra hnot
    have howes := h.settled b (List.mem_of_getElem? hj) (by simpa using hnot)
    simp [Batch.owes, hphase] at howes
  have hlen : j < s.batches.length := (List.getElem?_eq_some_iff.mp hj).1
  have hnot : ∀ library, ¬ b.Wakes library := by
    intro library hw
    have hrows := hw.2.2
    rw [hphase] at hrows
    exact absurd hrows (lt_irrefl 0)
  refine h.world (fun _ => rfl) rfl ?_ (settled_set h j fun hoff => absurd hoff (by simp [hrunning]))
  intro i r hi
  refine (h.fresh i r hi).mono (fun _ _ hp => hp) ?_ fun hwakes => .inl (wakes_set hj hwakes (hnot _))
  by_cases hlib : r.library = b.library
  · by_cases hrows : applied = 0
    · left
      rw [hlib]
      exact hown hrows
    · right
      refine ⟨{ b with phase := .committed applied }, List.mem_set hlen _, hlib.symm, hrunning, ?_⟩
      exact Nat.pos_of_ne_zero hrows
  · left
    show ((Assoc.get libraries r.library).map Protocol.head).getD 0 ≤ _
    rw [hother _ hlib]
    exact le_rfl

/-- A batch wakes its library's readers, which all have their places. -/
theorem resume_good {applied : ℕ} (hj : s.batches[j]? = some b) (hphase : b.phase = .committed applied) :
    Good { s.setBatch j { b with phase := .done } with
      holds := if 0 < applied then s.holds.wake b.library else s.holds } := by
  refine h.world ?_ ?_ ?_ (settled_set h j fun _ => rfl)
  · intro key
    split_ifs <;> rfl
  · split_ifs <;> rfl
  · intro i r hi
    have hpermits : ∀ id, id ∈ s.holds.permits →
        id ∈ (if 0 < applied then s.holds.wake b.library else s.holds).permits := by
      intro id hp
      split_ifs
      · exact List.mem_append_left _ hp
      · exact hp
    refine (h.fresh i r hi).mono (fun id _ => hpermits id) (.inl le_rfl) fun hwakes => ?_
    by_cases hb : b.Wakes r.library
    · -- this batch's own wake: the reader's place is under the library
      right
      intro id hplace
      have hrows : 0 < applied := by
        have := hb.2.2
        rw [hphase] at this
        exact this
      show id ∈ (if 0 < applied then s.holds.wake b.library else s.holds).permits
      rw [if_pos hrows, hb.1]
      exact List.mem_append_right _ (h.placed i r id hi hplace).1
    · exact .inl (wakes_set hj hwakes hb)

/-- A batch that owes no wake goes on, or is gone, and no head moves. -/
theorem quiet_good (b' : Batch) (hj : s.batches[j]? = some b) (howes : b.phase.applied = 0)
    (hsettled : b'.running = false → b'.owes = false)
    (hheads : ∀ key, ((Assoc.get libraries key).map Protocol.head).getD 0 = s.head key) :
    Good { s.setBatch j b' with libraries := libraries } := by
  refine h.world (fun _ => rfl) rfl (fun i r hi => ?_) (settled_set h j hsettled)
  refine (h.fresh i r hi).mono (fun _ _ hp => hp) (.inl (hheads r.library).le) fun hwakes =>
    .inl (wakes_set hj hwakes ?_)
  intro hb
  have hrows := hb.2.2
  omega

theorem Good.batch (library : String) :
    Good { s with batches := s.batches ++ [⟨library, .preparing, true⟩] } := by
  refine h.world (fun _ => rfl) rfl (fun i r hi => ?_) ?_
  · refine (h.fresh i r hi).mono (fun _ _ hp => hp) (.inl le_rfl) fun ⟨b, hb, hwake⟩ => .inl ⟨b, ?_, hwake⟩
    exact List.mem_append_left _ hb
  · exact List.forall_mem_snoc h.settled fun hrunning => by cases hrunning

omit h in
theorem handed_heads (s : State) (library generation : String) (key : String) :
    ((Assoc.get (match Assoc.get s.libraries library with
      | some _ => s.libraries
      | none => Assoc.set s.libraries library ⟨0, generation⟩) key).map Protocol.head).getD 0 = s.head key := by
  cases hget : Assoc.get s.libraries library with
  | some p => rfl
  | none =>
    rw [Assoc.get_set]
    split_ifs with hkey
    · subst hkey
      rw [State.head, hget]
      rfl
    · rfl

/-! ## Runs -/

theorem step_good (e : Event) (hstays : Stays s e) : Good (step s e) := by
  cases e with dsimp only [step]
  | arrive library since generation => exact h.arrive library since generation
  | register i =>
    split
    next r hi =>
      split_ifs
      · exact register_good h hi
      · exact h
    next => exact h
  | look i =>
    split
    next r hi =>
      split_ifs with hphase
      · split
        next p hget => exact h.setReader hi (.looked p) (fun head hp => by cases hp) (look_fresh hget)
        next => exact h.release hi fun head hp => by cases hp
      · exact h
    next => exact h
  | settle i =>
    split
    next r hi =>
      split
      next p hphase =>
        split_ifs with hwaits
        · -- the reader waits with what it has read
          have hplace : ∃ id, r.place = some id := by
            rw [Reader.waits, Bool.and_eq_true, Bool.and_eq_true] at hwaits
            exact Option.isSome_iff_exists.mp hwaits.1.1
          refine h.setReader hi (.waiting p.head) (fun _ _ => hplace) ?_
          intro id head hid hsaw hpermit
          refine h.fresh i r hi id head hid ?_ hpermit
          rw [← hsaw, Reader.saw, hphase, Reader.saw]
        · exact h.release hi fun head hp => by cases hp
      next => exact h
    next => exact h
  | endWait i admitted =>
    split
    next r hi =>
      split
      · refine h.release hi fun head hp => ?_
        cases admitted <;> cases hp
      · exact h
    next => exact h
  | dropReader i =>
    split
    next r hi => exact h.release hi fun head hp => by cases hp
    next => exact h
  | batch library => exact h.batch library
  | hand j generation =>
    split
    next b hj =>
      split_ifs with hready
      · refine quiet_good h { b with phase := .handed } hj ?_ (fun hoff => ?_)
          (handed_heads s b.library generation)
        · rw [hready.1]
          rfl
        · rw [hready.2] at hoff
          cases hoff
      · exact h
    next => exact h
  | commit =>
    split
    next b hj =>
      split_ifs with hphase
      · refine commit_good h hj hphase (fun key hkey => ?_) fun hrows => ?_
        · split
          · rw [Assoc.get_set, if_neg hkey]
          · rfl
        · subst hrows
          split
          next p hget =>
            rw [Assoc.get_set, if_pos rfl, State.head, hget]
            exact le_rfl
          next => exact le_rfl
      · exact h
    next => exact h
  | resume j =>
    split
    next b hj =>
      split
      next applied hphase =>
        by_cases hrunning : b.running = true
        · rw [if_pos hrunning]
          exact resume_good h hj hphase
        · rw [if_neg hrunning]
          exact h
      next => exact h
    next => exact h
  | dropBatch j =>
    split
    next b hj =>
      have howes : b.owes = false := hstays b hj
      have hrows : b.phase.applied = 0 := by simpa using (Bool.or_eq_false_iff.mp howes).2
      exact quiet_good h { b with running := false } hj hrows (fun _ => howes) fun _ => rfl
    next => exact h
  | stop => exact { h with }

end

/-- A first batch makes the library, a reader waits for its head, a second batch commits and wakes it. -/
def sampleRun : List Event :=
  [.batch "lib", .hand 0 "g", .commit 0 1, .resume 0, .arrive "lib" 1 (some "g"), .register 0, .look 0, .settle 0,
    .batch "lib", .hand 1 "g", .commit 1 2]

end DenEdge.Hold
