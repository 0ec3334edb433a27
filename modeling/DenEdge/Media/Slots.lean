import DenEdge.Media.Authority

/-!
# Guest slots are conserved

A slot that has its permit is held by one guest lease of the map, or by one admission that has not published it.
While leases are being dropped some permits are on their way back: they are held by nobody, and `loose`.
-/

namespace DenEdge.Media

variable {s s' : State} {loose : ℕ → Prop}

/-- What may hold a slot: an address's guest lease, or an admission. -/
inductive Holder where
  | lease (bucket : String)
  | contender (i : ℕ)
  deriving DecidableEq

def Phase.slot : Phase → Option ℕ
  | .contending k => some k
  | _ => none

def State.slotOf (s : State) : Holder → Option ℕ
  | .lease bucket => (Assoc.get s.leases (bucket, .guest)).bind (·.slot)
  | .contender i => (s.admissions[i]?).bind (·.phase.slot)

def State.HasPermit (s : State) (k : ℕ) : Prop := ∃ slot, s.slots[k]? = some slot ∧ slot.permit = true

structure Slotted (s : State) (loose : ℕ → Prop) : Prop where
  keys : (s.leases.map Prod.fst).Nodup
  member : ∀ e ∈ s.leases, e.1.2 = .member → e.2.slot = none
  count : s.available + s.slots.countP (·.permit) = GUEST_MEDIA_STREAMS
  permit : ∀ k, s.HasPermit k ↔ (∃ holder, s.slotOf holder = some k) ∨ loose k
  apart : ∀ k, loose k → ∀ holder, s.slotOf holder ≠ some k
  unique : ∀ holder holder' k, s.slotOf holder = some k → s.slotOf holder' = some k → holder = holder'

/-- Every permit is held. -/
abbrev Conserved (s : State) : Prop := Slotted s fun _ => False

theorem conserved_start (authority : List (String × String)) (registered : List String) :
    Conserved (start authority registered) where
  keys := List.nodup_nil
  member := fun _ he => (nomatch he)
  count := rfl
  permit := by
    intro k
    constructor
    · rintro ⟨slot, hslot, -⟩
      simp [start] at hslot
    · rintro (⟨holder, hholder⟩ | hfalse)
      · cases holder <;> simp [start, State.slotOf] at hholder
      · exact hfalse.elim
  apart := fun _ hfalse => hfalse.elim
  unique := by
    intro holder _ k hholder
    cases holder <;> simp [start, State.slotOf] at hholder

theorem hasPermit_iff {k : ℕ} : s.HasPermit k ↔ (s.slots.map Slot.permit)[k]? = some true := by
  simp [State.HasPermit]

/-- A step that moves no slot. -/
theorem Slotted.frame (h : Slotted s loose) (hkeys : (s'.leases.map Prod.fst).Nodup)
    (hmember : ∀ e ∈ s'.leases, e.1.2 = .member → e.2.slot = none) (havailable : s'.available = s.available)
    (hslots : s'.slots.map Slot.permit = s.slots.map Slot.permit)
    (hholders : ∀ holder, s'.slotOf holder = s.slotOf holder) : Slotted s' loose := by
  have hpermit : ∀ k, s'.HasPermit k ↔ s.HasPermit k := by
    intro k
    rw [hasPermit_iff, hasPermit_iff, hslots]
  have hcount : s'.slots.countP (·.permit) = s.slots.countP (·.permit) := by
    have hmap := congrArg (List.countP id) hslots
    rw [List.countP_map, List.countP_map] at hmap
    exact hmap
  refine ⟨hkeys, hmember, ?_, fun k => ?_, fun k hloose holder => ?_, fun holder holder' k => ?_⟩
  · rw [havailable, hcount]
    exact h.count
  · rw [hpermit, h.permit]
    simp only [hholders]
  · rw [hholders]
    exact h.apart k hloose holder
  · rw [hholders, hholders]
    exact h.unique holder holder' k

/-! ## Permits that go back -/

theorem release_spec (s : State) (k : ℕ) :
    (s.release k).available + (s.release k).slots.countP (·.permit) = s.available + s.slots.countP (·.permit) ∧
      ∀ j, (s.release k).HasPermit j ↔ s.HasPermit j ∧ j ≠ k := by
  unfold State.release
  cases hslot : s.slots[k]? with
  | none =>
    refine ⟨rfl, fun j => ⟨fun hj => ⟨hj, ?_⟩, And.left⟩⟩
    rintro rfl
    obtain ⟨slot, hsome, -⟩ := hj
    cases hslot.symm.trans hsome
  | some slot =>
    obtain ⟨hlt, hget⟩ := List.getElem?_eq_some_iff.mp hslot
    dsimp only
    split_ifs with hpermit
    · refine ⟨?_, fun j => ?_⟩
      · -- one permit fewer among the slots, one more that is left
        have hpos : 0 < s.slots.countP (·.permit) :=
          List.countP_pos_iff.mpr ⟨slot, List.mem_of_getElem? hslot, hpermit⟩
        rw [List.countP_set hlt, hget, if_pos hpermit]
        simp only [Bool.false_eq_true, if_false]
        omega
      · by_cases hj : k = j
        · subst hj
          simp [State.HasPermit, List.getElem?_set_self hlt]
        · simp [State.HasPermit, List.getElem?_set_ne hj, Ne.symm hj]
    · refine ⟨rfl, fun j => ⟨fun hj => ⟨hj, ?_⟩, And.left⟩⟩
      rintro rfl
      obtain ⟨slot', hsome, hhas⟩ := hj
      obtain rfl := Option.some.inj (hslot.symm.trans hsome)
      exact hpermit hhas

theorem Beside.slotOf (h : Beside s s') (holder : Holder) : s'.slotOf holder = s.slotOf holder := by
  cases holder with
  | lease =>
    dsimp only [State.slotOf]
    rw [h.leases]
  | contender i =>
    dsimp only [State.slotOf]
    rw [h.admissions]

variable {k : ℕ}
variable {keep : Key × Lease → Bool} {e : Key × Lease} {lease : Lease} {b : Admission}
    {bucket library : String} {j : ℕ} {ch : Change}

section

variable (h : Slotted s loose)
include h

/-- A permit that nobody holds goes back. -/
theorem Slotted.release (hnone : ∀ holder, s.slotOf holder ≠ some k) :
    Slotted (s.release k) fun j => loose j ∧ j ≠ k := by
  have hbeside := release_beside s k
  obtain ⟨hcount, hpermit⟩ := release_spec s k
  refine ⟨?_, ?_, hcount.trans h.count, fun j => ?_, fun j hloose holder => ?_, fun holder holder' j => ?_⟩
  · rw [hbeside.leases]
    exact h.keys
  · rw [hbeside.leases]
    exact h.member
  · rw [hpermit, h.permit]
    simp only [hbeside.slotOf]
    constructor
    · rintro ⟨hheld | hloose, hne⟩
      · exact .inl hheld
      · exact .inr ⟨hloose, hne⟩
    · rintro (⟨holder, hheld⟩ | ⟨hloose, hne⟩)
      · refine ⟨.inl ⟨holder, hheld⟩, ?_⟩
        rintro rfl
        exact hnone holder hheld
      · exact ⟨.inr hloose, hne⟩
  · rw [hbeside.slotOf]
    exact h.apart j hloose.1 holder
  · rw [hbeside.slotOf, hbeside.slotOf]
    exact h.unique holder holder' j

theorem Slotted.congr {loose' : ℕ → Prop} (hiff : ∀ k, loose k ↔ loose' k) : Slotted s loose' := by
  obtain rfl : loose = loose' := funext fun k => propext (hiff k)
  exact h

theorem Slotted.drops {gone : List (Key × Lease)}
    (hnone : ∀ e ∈ gone, ∀ k, e.2.slot = some k → ∀ holder, s.slotOf holder ≠ some k) :
    Slotted (gone.foldl (fun s e => s.drop e.2) s) fun k => loose k ∧ ∀ e ∈ gone, e.2.slot ≠ some k := by
  induction gone generalizing s loose with
  | nil => exact h.congr fun k => by simp
  | cons e gone ih =>
    rw [List.foldl_cons]
    have hrest : ∀ e' ∈ gone, ∀ k, e'.2.slot = some k → ∀ holder, (s.drop e.2).slotOf holder ≠ some k := by
      intro e' he' k hk holder
      rw [(drop_beside s e.2).slotOf]
      exact hnone e' (List.mem_cons_of_mem _ he') k hk holder
    cases hslot : e.2.slot with
    | none =>
      have hdrop : s.drop e.2 = s := by simp [State.drop, hslot]
      rw [hdrop] at hrest ⊢
      refine (ih h hrest).congr fun k => ?_
      simp [hslot]
    | some j =>
      have hdrop : s.drop e.2 = s.release j := by simp [State.drop, hslot]
      rw [hdrop] at hrest ⊢
      refine (ih (h.release (hnone e List.mem_cons_self j hslot)) hrest).congr fun k => ?_
      rw [List.forall_mem_cons, hslot, and_assoc]
      exact and_congr_right fun _ => and_congr_left fun _ => not_congr (by rw [Option.some.injEq, eq_comm])

/-! ## Leases that are dropped -/

/-- Only some leases of the map are left, and no permit went back yet. -/
def State.only (s : State) (keep : Key × Lease → Bool) : State := { s with leases := s.leases.filter keep }

theorem Slotted.slotOf_only (keep : Key × Lease → Bool) (bucket : String) :
    (s.only keep).slotOf (.lease bucket) = some k ↔
      ∃ lease, Assoc.get s.leases (bucket, .guest) = some lease ∧ keep ((bucket, .guest), lease) = true ∧
      lease.slot = some k := by
  have hget := Assoc.get_filter h.keys keep (bucket, .guest)
  rw [show (s.only keep).slotOf (.lease bucket) =
    (Assoc.get (s.leases.filter keep) (bucket, .guest)).bind (·.slot) from rfl, hget, Option.bind_eq_some_iff]
  constructor
  · rintro ⟨lease, hlease, hslot⟩
    obtain ⟨hold, hkeep⟩ := Option.filter_eq_some_iff.mp hlease
    exact ⟨lease, hold, hkeep, hslot⟩
  · rintro ⟨lease, hold, hkeep, hslot⟩
    exact ⟨lease, Option.filter_eq_some_iff.mpr ⟨hold, hkeep⟩, hslot⟩

/-- Whoever holds a slot now held it before. -/
theorem Slotted.held_before {holder : Holder}
    (hholder : (s.only keep).slotOf holder = some k) : s.slotOf holder = some k := by
  cases holder with
  | lease bucket =>
    obtain ⟨lease, hget, -, hslot⟩ := (h.slotOf_only keep bucket).mp hholder
    exact Option.bind_eq_some_iff.mpr ⟨lease, hget, hslot⟩
  | contender i => exact hholder

/-- A lease with a slot is its address's guest lease. -/
theorem Slotted.lease_holds (he : e ∈ s.leases) (hk : e.2.slot = some k) :
    ∃ bucket, e.1 = (bucket, .guest) ∧ Assoc.get s.leases (bucket, .guest) = some e.2 ∧
      s.slotOf (.lease bucket) = some k := by
  have hget := Assoc.get_of_mem_nodup h.keys he
  obtain ⟨⟨bucket, side⟩, lease⟩ := e
  cases side with
  | member => cases (h.member _ he rfl).symm.trans hk
  | guest => exact ⟨bucket, rfl, hget, Option.bind_eq_some_iff.mpr ⟨lease, hget, hk⟩⟩

/-- The slot of a lease that goes is held by nobody. -/
theorem Slotted.gone_free
    (he : e ∈ s.leases.filter fun e => !keep e) (hk : e.2.slot = some k) (holder : Holder) :
    (s.only keep).slotOf holder ≠ some k := by
  intro hholder
  obtain ⟨hmem, hdrop⟩ := List.mem_filter.mp he
  obtain ⟨bucket, hkey, hget, hheld⟩ := h.lease_holds hmem hk
  obtain rfl := h.unique _ _ k (h.held_before hholder) hheld
  obtain ⟨lease, hget', hkeep, -⟩ := (h.slotOf_only keep bucket).mp hholder
  obtain rfl := Option.some.inj (hget.symm.trans hget')
  rw [← hkey] at hkeep
  simp [hkeep] at hdrop

end

section

variable (h : Conserved s)
include h

theorem Slotted.only (keep : Key × Lease → Bool) :
    Slotted (s.only keep) fun k => ∃ e ∈ s.leases.filter (fun e => !keep e), e.2.slot = some k where
  keys := Assoc.keys_filter keep h.keys
  member := fun e he => h.member e (List.mem_of_mem_filter he)
  count := h.count
  permit := by
    intro k
    refine (h.permit k).trans ⟨?_, ?_⟩
    · rintro (⟨holder, hholder⟩ | hfalse)
      · cases holder with
        | lease bucket =>
          obtain ⟨lease, hget, hslot⟩ := Option.bind_eq_some_iff.mp hholder
          -- the lease stays, or goes and leaves its permit loose
          by_cases hkeep : keep ((bucket, .guest), lease) = true
          · exact .inl ⟨.lease bucket, (h.slotOf_only keep bucket).mpr ⟨lease, hget, hkeep, hslot⟩⟩
          · exact .inr ⟨_, List.mem_filter.mpr ⟨Assoc.mem_of_get hget, by simp [hkeep]⟩, hslot⟩
        | contender i => exact .inl ⟨.contender i, hholder⟩
      · exact hfalse.elim
    · rintro (⟨holder, hholder⟩ | ⟨e, he, hk⟩)
      · exact .inl ⟨holder, h.held_before hholder⟩
      · obtain ⟨bucket, -, -, hheld⟩ := h.lease_holds (List.mem_of_mem_filter he) hk
        exact .inl ⟨.lease bucket, hheld⟩
  apart := fun _ ⟨_, he, hk⟩ => h.gone_free he hk
  unique := fun holder holder' k hholder hholder' =>
    h.unique holder holder' k (h.held_before hholder) (h.held_before hholder')

theorem Slotted.retain (keep : Key × Lease → Bool) : Conserved (s.retain keep) := by
  refine ((h.only keep).drops fun e he k hk => h.gone_free he hk).congr fun k => ?_
  constructor
  · rintro ⟨⟨e, he, hk⟩, hnone⟩
    exact hnone e he hk
  · exact False.elim

theorem Slotted.expire (now : ℕ) : Conserved (s.expire now) := Slotted.retain h _

theorem Slotted.invalidate (library : String) : Conserved (s.invalidate library) := by
  have hnext : Conserved { s with
    generation := s.generation + 1
    former := s.former.filter (·.library ≠ library) } := { h with }
  exact Slotted.retain hnext _

/-! ## Leases and admissions that change -/

end

/-- Bindings of the map change, the slots they have do not. -/
theorem Slotted.set_lease (h : Slotted s loose) {key : Key} (hmember : key.2 = .member → lease.slot = none)
    (hguest : key.2 = .guest → (Assoc.get s.leases key).bind (·.slot) = lease.slot) :
    Slotted { s with leases := Assoc.set s.leases key lease } loose := by
  refine h.frame (Assoc.keys_set _ _ _ h.keys) ?_ rfl rfl fun holder => ?_
  · intro e he hside
    rcases Assoc.mem_set he with hold | rfl
    · exact h.member e hold hside
    · exact hmember hside
  · cases holder with
    | contender i => rfl
    | lease bucket =>
      change (Assoc.get (Assoc.set s.leases key lease) (bucket, .guest)).bind (·.slot) = _
      rw [Assoc.get_set]
      split_ifs with hkey
      · subst hkey
        exact (hguest rfl).symm
      · rfl

variable {a : Admission} {i now : ℕ}

section

variable (h : Conserved s) (ha : s.admissions[i]? = some a)
include ha

theorem slotOf_contender : s.slotOf (.contender i) = a.phase.slot := by
  change (s.admissions[i]?).bind (·.phase.slot) = _
  rw [ha, Option.bind_some]

/-- An admission's step moves the slot of that admission only. -/
theorem slotOf_set (b : Admission) (holder : Holder) :
    (s.setAdmission i b).slotOf holder = if holder = .contender i then b.phase.slot else s.slotOf holder := by
  cases holder with
  | lease => rfl
  | contender j =>
    change ((s.admissions.set i b)[j]?).bind (·.phase.slot) = _
    by_cases hj : i = j
    · subst hj
      rw [List.getElem?_set_self (List.getElem?_eq_some_iff.mp ha).1, if_pos rfl, Option.bind_some]
    · rw [List.getElem?_set_ne hj, if_neg (fun heq => hj (Holder.contender.inj heq).symm)]
      rfl

theorem slotOf_setAdmission (hslot : b.phase.slot = a.phase.slot)
    (holder : Holder) : (s.setAdmission i b).slotOf holder = s.slotOf holder := by
  rw [slotOf_set ha]
  split_ifs with hi
  · rw [hi, slotOf_contender ha, hslot]
  · rfl

theorem Slotted.setAdmission (h : Slotted s loose)
    (hslot : b.phase.slot = a.phase.slot) : Slotted (s.setAdmission i b) loose :=
  h.frame h.keys h.member rfl rfl (slotOf_setAdmission ha hslot)

omit ha in
theorem Slotted.answer (h : Slotted s loose) (ha : s.admissions[i]? = some a) (hslot : a.phase.slot = none)
    (slot : Option ℕ) : Slotted (s.answer i a slot) loose := by
  refine h.frame h.keys h.member rfl rfl fun holder => ?_
  have hset := slotOf_setAdmission (b := { a with phase := .done }) ha hslot.symm holder
  cases holder <;> exact hset

theorem expire_admission (now : ℕ) : (s.expire now).admissions[i]? = some a :=
  (congrArg (·[i]?) (retain_beside s _).admissions).trans ha

include h

theorem Slotted.ask (hphase : a.phase = .asking) :
    Conserved (ask s i a now) := by
  have hexpire := Slotted.expire h now
  have ha' := expire_admission ha now
  unfold Media.ask
  dsimp only
  split
  next lease hlease =>
    obtain ⟨hget, -⟩ := Option.filter_eq_some_iff.mp hlease
    refine Slotted.answer (hexpire.set_lease ?_ ?_) ha' (by rw [hphase]; rfl) _
    · exact fun hside => hexpire.member _ (Assoc.mem_of_get hget) hside
    · intro _
      rw [hget]
      rfl
  next => exact hexpire.setAdmission ha' (by rw [hphase]; rfl)

theorem Slotted.publish {generation : ℕ}
    (hphase : a.phase = .proved generation) : Conserved (publish s i a generation now) := by
  unfold Media.publish
  split_ifs
  · exact h.setAdmission ha (by rw [hphase]; rfl)
  · -- the lease that is replaced is a member's: no permit goes back
    have hinsert : s.insert (a.bucket, .member) ⟨now + LEASE_IDLE_MS, none, a.claim⟩ =
        { s with leases := Assoc.set s.leases (a.bucket, .member) ⟨now + LEASE_IDLE_MS, none, a.claim⟩ } := by
      unfold State.insert
      cases hget : Assoc.get s.leases (a.bucket, .member) with
      | none => rfl
      | some old =>
        have hslot : old.slot = none := h.member _ (Assoc.mem_of_get hget) rfl
        have hdrop : s.drop old = s := by
          unfold State.drop
          rw [hslot]
        dsimp only
        rw [hdrop]
    rw [hinsert]
    refine Slotted.answer (h.set_lease (fun _ => rfl) ?_) ha (by rw [hphase]; rfl) _
    intro hside
    cases hside

omit ha in
/-- The address's guest lease after what is over is gone. -/
theorem Slotted.renew_guest
    (hget : Assoc.get (s.expire now).leases (bucket, .guest) = some lease) (until_ : ℕ) :
    Conserved { s.expire now with
      leases := Assoc.set (s.expire now).leases (bucket, .guest) { lease with until_ := until_ } } := by
  refine (Slotted.expire h now).set_lease (fun hside => ?_) fun _ => ?_
  · cases hside
  · rw [hget]
    rfl

theorem Slotted.look (hproven : Proven s) (hphase : a.phase = .refused) : Conserved (look s i a now) := by
  have ha' := expire_admission ha now
  unfold Media.look
  rcases hproven.join i now a with ⟨lease, -, hget, hjoin⟩ | ⟨-, hjoin⟩
  · rw [hjoin]
    exact Slotted.answer (Slotted.renew_guest h hget _) ha' (by rw [hphase]; rfl) _
  · rw [hjoin]
    exact (Slotted.expire h now).setAdmission ha' (by rw [hphase]; rfl)

/-! ## A slot is taken, published or given back -/

omit h in
theorem slotOf_contending (hphase : a.phase = .contending k) :
    s.slotOf (.contender i) = some k := by
  rw [slotOf_contender ha, hphase]
  rfl

omit h ha in
/-- A permit that nobody holds goes to one who holds none. -/
theorem Slotted.take (h : Slotted s (· = k)) {taker : Holder} (hkeys : (s'.leases.map Prod.fst).Nodup)
    (hmember : ∀ e ∈ s'.leases, e.1.2 = .member → e.2.slot = none) (havailable : s'.available = s.available)
    (hslots : s'.slots = s.slots)
    (hholders : ∀ holder, s'.slotOf holder = if holder = taker then some k else s.slotOf holder)
    (hbefore : s.slotOf taker = none) : Conserved s' := by
  refine ⟨hkeys, hmember, ?_, fun j => ?_, fun _ hfalse => hfalse.elim, fun holder holder' j => ?_⟩
  · rw [havailable, hslots]
    exact h.count
  · rw [hasPermit_iff, hslots, ← hasPermit_iff, h.permit]
    simp only [hholders, or_false]
    constructor
    · rintro (⟨holder, hholder⟩ | rfl)
      · refine ⟨holder, ?_⟩
        rw [if_neg]
        · exact hholder
        · rintro rfl
          cases hbefore.symm.trans hholder
      · exact ⟨taker, if_pos rfl⟩
    · rintro ⟨holder, hholder⟩
      split_ifs at hholder
      · exact .inr (Option.some.inj hholder).symm
      · exact .inl ⟨holder, hholder⟩
  · simp only [hholders]
    intro hholder hholder'
    split_ifs at hholder hholder' with hself hself' hself'
    · exact hself.trans hself'.symm
    · exact absurd (hholder'.trans hholder.symm) (h.apart k rfl holder')
    · exact absurd (hholder.trans hholder'.symm) (h.apart k rfl holder)
    · exact h.unique holder holder' j hholder hholder'

omit ha in
/-- A new slot has a permit that nobody holds yet. -/
theorem Slotted.new_slot (havailable : s.available ≠ 0) :
    Slotted { s with available := s.available - 1, slots := s.slots ++ [Slot.mk true 0] }
      (· = s.slots.length) := by
  refine ⟨h.keys, h.member, ?_, fun j => ?_, ?_, h.unique⟩
  · have hcount := h.count
    rw [List.countP_append, List.countP_singleton]
    simp only [if_true]
    omega
  · have hiff : State.HasPermit { s with available := s.available - 1, slots := s.slots ++ [Slot.mk true 0] } j ↔
        s.HasPermit j ∨ j = s.slots.length := by
      rw [hasPermit_iff, hasPermit_iff, List.map_append, List.getElem?_append, List.length_map]
      split_ifs with hj
      · exact ⟨.inl, fun hor => hor.resolve_right hj.ne⟩
      · have hnone : (s.slots.map Slot.permit)[j]? = none :=
          List.getElem?_eq_none (by rw [List.length_map]; omega)
        rw [hnone, List.map_singleton, List.getElem?_singleton]
        simp only [ite_eq_left_iff, reduceCtorEq, imp_false, not_not, false_or]
        omega
    rw [hiff, h.permit, or_false]
    rfl
  · rintro _ rfl holder hholder
    obtain ⟨slot, hslot, -⟩ := (h.permit _).mpr (.inl ⟨holder, hholder⟩)
    exact absurd (List.getElem?_eq_some_iff.mp hslot).1 (lt_irrefl _)

theorem Slotted.acquire (hphase : a.phase = .acquiring) :
    Conserved (acquire s i a) := by
  unfold Media.acquire
  split_ifs with havailable
  · exact h.setAdmission ha (by rw [hphase]; rfl)
  · have hidle : s.slotOf (.contender i) = none := by
      rw [slotOf_contender ha, hphase]
      rfl
    exact (Slotted.new_slot h havailable).take h.keys h.member rfl rfl (slotOf_set ha _) hidle

/-- An admission is over: the slot it had is nobody's. -/
theorem Slotted.answer_contending (hphase : a.phase = .contending k)
    (slot : Option ℕ) : Slotted (s.answer i a slot) (· = k) := by
  have hself := slotOf_contending ha hphase
  have hholders : ∀ holder, (s.answer i a slot).slotOf holder =
      if holder = .contender i then none else s.slotOf holder := by
    intro holder
    have hset := slotOf_set ha { a with phase := .done } holder
    cases holder <;> exact hset
  refine ⟨h.keys, h.member, h.count, fun j => (h.permit j).trans ?_, ?_, fun holder holder' j => ?_⟩
  · simp only [hholders, or_false]
    constructor
    · rintro ⟨holder, hholder⟩
      by_cases hi : holder = .contender i
      · subst hi
        exact .inr (Option.some.inj (hholder.symm.trans hself))
      · exact .inl ⟨holder, by rw [if_neg hi]; exact hholder⟩
    · rintro (⟨holder, hholder⟩ | rfl)
      · split_ifs at hholder
        exact ⟨holder, hholder⟩
      · exact ⟨_, hself⟩
  · rintro j rfl holder hholder
    rw [hholders] at hholder
    split_ifs at hholder with hi
    exact hi (h.unique holder _ j hholder hself)
  · simp only [hholders]
    intro hholder hholder'
    split_ifs at hholder hholder'
    exact h.unique holder holder' j hholder hholder'

omit h ha in
/-- A permit that nobody holds goes to an address that has no guest lease. -/
theorem Slotted.open_guest (h : Slotted s (· = k))
    (hnone : Assoc.get s.leases (bucket, .guest) = none) (until_ : ℕ) :
    Conserved { s with leases := Assoc.set s.leases (bucket, .guest) ⟨until_, some k, none⟩ } := by
  have hholders : ∀ holder,
      ({ s with leases := Assoc.set s.leases (bucket, .guest) ⟨until_, some k, none⟩ } : State).slotOf
      holder = if holder = .lease bucket then some k else s.slotOf holder := by
    intro holder
    cases holder with
    | contender j => rfl
    | lease other =>
      change (Assoc.get (Assoc.set s.leases (bucket, .guest) _) (other, .guest)).bind (·.slot) = _
      rw [Assoc.get_set]
      by_cases hother : other = bucket
      · rw [if_pos (by rw [hother]), if_pos (by rw [hother])]
        rfl
      · rw [if_neg (fun heq => hother (congrArg Prod.fst heq)), if_neg (fun heq => hother (Holder.lease.inj heq))]
        rfl
  have hbefore : s.slotOf (.lease bucket) = none := by
    change (Assoc.get s.leases (bucket, .guest)).bind (·.slot) = none
    rw [hnone]
    rfl
  refine h.take (Assoc.keys_set _ _ _ h.keys) (fun e he hside => ?_) rfl rfl hholders hbefore
  rcases Assoc.mem_set he with hold | rfl
  · exact h.member e hold hside
  · cases hside

theorem Slotted.settle (hproven : Proven s) (hphase : a.phase = .contending k) :
    Conserved (settle s i a k now) := by
  have ha' := expire_admission ha now
  unfold Media.settle
  rcases hproven.join i now a with ⟨lease, -, hget, hjoin⟩ | ⟨hnone, hjoin⟩
  · rw [hjoin]
    have hloose :=
      Slotted.answer_contending (Slotted.renew_guest h hget (now + LEASE_IDLE_MS)) ha' hphase lease.slot
    exact (hloose.release (hloose.apart k rfl)).congr fun j => ⟨fun hj => hj.2 hj.1, False.elim⟩
  · rw [hjoin]
    have hinsert : (s.expire now).insert (a.bucket, .guest) ⟨now + LEASE_IDLE_MS, some k, none⟩ =
        { s.expire now with
        leases := Assoc.set (s.expire now).leases (a.bucket, .guest) ⟨now + LEASE_IDLE_MS, some k, none⟩ } := by
      unfold State.insert
      rw [hnone]
    dsimp only
    rw [hinsert]
    exact Slotted.open_guest (Slotted.answer_contending (Slotted.expire h now) ha' hphase (some k)) hnone _

end

/-! ## Steps -/

theorem Slotted.change (h : Slotted s loose) (library : String) (proof : Option String) :
    Slotted (s.change library proof) loose := by
  refine h.frame h.keys h.member rfl rfl fun holder => ?_
  cases holder with
  | lease => rfl
  | contender i =>
    change ((s.admissions.map _)[i]?).bind (fun a : Admission => a.phase.slot) =
      (s.admissions[i]?).bind (·.phase.slot)
    rw [List.getElem?_map]
    cases s.admissions[i]? <;> rfl

theorem Slotted.register (h : Conserved s) {proof : String} {replaced : Option Claim}
    (hregister : register s library proof = some (s', replaced)) : Conserved s' := by
  have hmarked : Conserved { s with registered := library :: s.registered } := { h with }
  unfold Media.register at hregister
  cases hget : Assoc.get s.authority library with
  | none => simp [hget] at hregister
  | some old =>
    rw [hget] at hregister
    dsimp only at hregister
    split_ifs at hregister
    · cases hregister
      exact h
    · cases hregister
      exact hmarked
    · cases hregister
      exact hmarked.change library (some proof)

theorem Slotted.retire (h : Conserved s) {replaced : Claim}
    (hretire : retire s library = some (s', replaced)) : Conserved s' := by
  obtain ⟨old, -, heq⟩ := Option.map_eq_some_iff.mp hretire
  cases heq
  exact h.change library none

/-- What holds in every state of a run. -/
structure Sound (s : State) : Prop where
  proven : Proven s
  slotted : Conserved s

section

variable (h : Sound s)
include h

theorem Sound.setAdmission (ha : s.admissions[i]? = some a) (hok : b.OK s.view)
    (hslot : b.phase.slot = a.phase.slot) : Sound (s.setAdmission i b) :=
  ⟨h.proven.setAdmission hok, h.slotted.setAdmission ha hslot⟩

theorem Sound.setChange (hch : ch.OK s.view) : Sound (s.setChange j ch) :=
  ⟨h.proven.setChange hch, { h.slotted with }⟩

theorem Sound.advance (hch : ch ∈ s.changes) : Sound (advance s j ch) := by
  have hinvalidate := Slotted.invalidate h.slotted ch.library
  unfold Media.advance
  split
  next => exact Sound.setChange ⟨h.proven.invalidate ch.library, hinvalidate⟩ (.of_stage nofun nofun)
  next proof _ _ =>
    split
    next hregister =>
      obtain ⟨hafter, hreplaced⟩ := h.proven.register hregister
      exact Sound.setChange ⟨hafter, Slotted.register h.slotted hregister⟩ (.of_written hreplaced)
    next => exact h.setChange (.of_stage nofun nofun)
  next hstage => exact ⟨h.proven.settles hch hstage, { hinvalidate with }⟩
  next =>
    split
    next hretire =>
      obtain ⟨hafter, hreplaced⟩ := h.proven.retire hretire
      refine Sound.setChange ⟨hafter, Slotted.retire h.slotted hretire⟩ (.of_written ?_)
      rintro c ⟨⟩
      exact hreplaced
    next => exact h.setChange (.of_stage nofun nofun)
  next hstage _ => exact ⟨h.proven.settles hch hstage, { hinvalidate with }⟩
  next replaced hstage _ =>
    have hended : Proven { s with ended := s.ended ++ replaced.toList } := by
      refine h.proven.record ⟨h.proven.view.replaced,
        List.forall_mem_append.mpr ⟨h.proven.view.ended, fun c hc => ?_⟩⟩
      refine (h.proven.changes ch hch).invalidated c (hstage.trans ?_)
      rw [Option.mem_toList.mp hc]
    exact ⟨hended.setChange (.of_stage nofun nofun), { h.slotted with }⟩
  next => exact h

theorem Sound.admissionStep (ha : s.admissions[i]? = some a) (e : Event) : Sound (admissionStep s i a e) := by
  have hmem := List.mem_of_getElem? ha
  have hok := h.proven.admissions a hmem
  cases e with dsimp only [Media.admissionStep]
  | ask =>
    split_ifs with hphase
    · exact ⟨h.proven.ask hmem hphase.1, Slotted.ask h.slotted ha hphase.1⟩
    · exact h
  | load =>
    split_ifs with hphase
    · refine h.setAdmission ha ⟨fun g hg => ?_, by simp, ?_, ?_, ?_, ?_⟩ (by rw [hphase]; rfl)
      · cases hg
        exact Nat.le_refl _
      · exact fun _ => hok.sees (by simp [hphase])
      · exact fun _ => hok.knew (by simp [hphase])
      · exact fun _ => hok.early (by simp [hphase, Phase.Early])
      · exact fun _ => hok.apart (by simp [hphase])
    · exact h
  | verify =>
    split
    next generation hphase =>
      have hlive : a.phase ≠ .done := by simp [hphase]
      split_ifs with hmember
      · obtain ⟨c, hclaim, hholds⟩ := isHouseholdMember_spec (Bool.and_eq_true_iff.mp hmember).2
        refine h.setAdmission ha ⟨by simp, ?_, fun _ => hok.sees hlive, fun _ => hok.knew hlive,
          fun _ => hok.early (by simp [hphase, Phase.Early]), fun _ => hok.apart hlive⟩ (by rw [hphase]; rfl)
        intro g hg
        cases hg
        exact ⟨hok.loaded generation hphase, c, hclaim, hok.sees hlive c hholds, fun _ => .inl hholds⟩
      · exact h.setAdmission ha ⟨by simp, by simp, fun _ => hok.sees hlive, fun _ => hok.knew hlive,
          fun hearly => absurd hearly id, fun _ => hok.apart hlive⟩ (by rw [hphase]; rfl)
    next => exact h
  | publish =>
    split
    next hphase =>
      split_ifs
      · exact ⟨h.proven.publish hmem hphase, Slotted.publish h.slotted ha hphase⟩
      · exact h
    next => exact h
  | look =>
    split_ifs with hphase
    · exact ⟨h.proven.look hmem hphase.1, Slotted.look h.slotted ha h.proven hphase.1⟩
    · exact h
  | spend =>
    split_ifs with hphase hleft
    · refine h.setAdmission ha (hok.plain ?_ ?_ ?_ fun hearly => absurd hearly id) (by rw [hphase]; rfl)
        <;> simp [hphase]
    · exact h.setAdmission ha Admission.OK.done (by rw [hphase]; rfl)
    · exact h
  | acquire =>
    split_ifs with hphase
    · exact ⟨h.proven.acquire hmem hphase, Slotted.acquire h.slotted ha hphase⟩
    · exact h
  | settle =>
    split
    next hphase =>
      split_ifs
      · exact ⟨h.proven.settle _ _ _ _, Slotted.settle h.slotted ha h.proven hphase⟩
      · exact h
    next => exact h
  | _ => exact h

theorem Sound.step (e : Event) : Sound (step s e) := by
  have hproven := h.proven
  have hslotted := h.slotted
  cases hadmission : e.admission with
  | some i =>
    rcases step_admission (s := s) hadmission with hstep | ⟨a, ha, hstep⟩
    · rw [hstep]
      exact h
    · rw [hstep]
      exact h.admissionStep ha e
  | none =>
    cases e with
    | tick ms => exact ⟨{ hproven with }, { hslotted with }⟩
    | arrive =>
      refine ⟨hproven.frame rfl hproven.leases ?_ hproven.yes hproven.changes, ?_⟩
      · refine List.forall_mem_snoc hproven.admissions ?_
        exact ⟨nofun, nofun, fun _ c hc => mem_current.mpr hc, fun _ c hc => .inr hc, fun _ => rfl,
          fun _ c hc hended => (hproven.view.ended c hended).2 hc⟩
      refine hslotted.frame hslotted.keys hslotted.member rfl rfl fun holder => ?_
      cases holder with
      | lease _ => rfl
      | contender i =>
        change ((s.admissions ++ [_])[i]?).bind (·.phase.slot) = (s.admissions[i]?).bind (·.phase.slot)
        rcases Nat.lt_trichotomy i s.admissions.length with hlt | rfl | hgt
        · rw [List.getElem?_append_left hlt]
        · simp [Phase.slot]
        · rw [List.getElem?_eq_none (by simp; omega), List.getElem?_eq_none (by omega)]
    | frame slot now =>
      dsimp only [Media.step]
      split
      next kept hkept =>
        split_ifs
        · refine ⟨{ hproven with }, ?_⟩
          refine hslotted.frame hslotted.keys hslotted.member rfl ?_ fun holder => by cases holder <;> rfl
          -- a frame changes when the slot was last used, and not its permit
          refine List.ext_getElem? fun j => ?_
          rw [List.getElem?_map, List.getElem?_map, List.getElem?_set]
          split_ifs with hj hlt
          · subst hj
            rw [hkept]
            rfl
          · subst hj
            rw [List.getElem?_eq_none (by omega)]
          · rfl
        · exact h
      next => exact h
    | register | retire =>
      refine ⟨hproven.frame rfl hproven.leases hproven.admissions hproven.yes ?_, { hslotted with }⟩
      exact List.forall_mem_snoc hproven.changes (.of_stage nofun nofun)
    | advance j =>
      dsimp only [Media.step]
      split
      next ch hch => exact h.advance (List.mem_of_getElem? hch)
      next => exact h
    | cancel j =>
      dsimp only [Media.step]
      split
      next ch hch =>
        have hok := hproven.changes ch (List.mem_of_getElem? hch)
        exact h.setChange ⟨hok.written, hok.invalidated⟩
      next => exact h
    | _ => cases hadmission

end

/-! ## Whole runs -/

theorem exec_sound (authority : List (String × String)) (registered : List String) (es : List Event) :
    Sound (Run.exec step (start authority registered) es) :=
  Run.exec_inv_all (I := Sound) (fun _ e h => h.step e) es
    ⟨proven_start authority registered, conserved_start authority registered⟩

theorem guest_leases_once {leases : List (Key × Lease)} (h : (leases.map Prod.fst).Nodup) (bucket : String) :
    (leases.filter (·.1 = (bucket, .guest))).length ≤ 1 := by
  have hkeys := Assoc.keys_filter (fun e => decide (e.1 = (bucket, Side.guest))) h
  have hsame : (leases.filter (·.1 = (bucket, .guest))).map Prod.fst =
      List.replicate (leases.filter (·.1 = (bucket, .guest))).length (bucket, .guest) := by
    refine List.eq_replicate_iff.mpr ⟨by rw [List.length_map], fun key hkey => ?_⟩
    obtain ⟨e, he, rfl⟩ := List.mem_map.mp hkey
    exact of_decide_eq_true (List.mem_filter.mp he).2
  rw [hsame] at hkeys
  exact List.nodup_replicate.mp hkeys

/-- Without a slot, an admission is only answered for a claim that was not refused, and that was its library's
authority at some moment of it, or had been replaced when it started by a change that had neither invalidated nor
answered; an address has one guest lease at most; every permit that was taken is that of one guest lease, or of
one admission that has not published it. -/
theorem leases_and_slots (authority : List (String × String)) (registered : List String) (es : List Event) :
    let s := Run.exec step (start authority registered) es
    (∀ y ∈ s.yes, y.slot = none → y.admission.wasRefused = false ∧ ∃ c, y.admission.claim = some c ∧
      (c ∈ y.admission.during ∨ c ∈ y.admission.unanswered ∧ c ∉ y.admission.answered)) ∧
    (∀ bucket, (s.leases.filter (·.1 = (bucket, .guest))).length ≤ 1) ∧
    s.available + s.slots.countP (·.permit) = GUEST_MEDIA_STREAMS ∧
    (∀ k, s.HasPermit k ↔ ∃ holder, s.slotOf holder = some k) ∧
    ∀ holder holder' k, s.slotOf holder = some k → s.slotOf holder' = some k → holder = holder' := by
  obtain ⟨hproven, hslotted⟩ := exec_sound authority registered es
  refine ⟨hproven.yes, guest_leases_once hslotted.keys, hslotted.count, fun k => ?_, hslotted.unique⟩
  rw [hslotted.permit, or_false]

/-- A member's lease is opened for a claim. -/
def proves (i : ℕ) (c : Claim) : List Event :=
  [.arrive (some c) "b", .ask i 0, .load i, .verify i false, .publish i 0]

/-- A registration was answered; a later retirement has written its marker, and not invalidated. -/
def retirementUnderWay : State :=
  Run.exec step (start [("l", "old")] [])
    ([.register "l" "new", .advance 0, .advance 0, .advance 0, .advance 0] ++ proves 0 ⟨"l", "new"⟩ ++
      [.retire "l", .advance 1])

/-- A retirement was cancelled while it wrote its marker; its repeat was answered. -/
def retirementRepeated : State :=
  Run.exec step (start [("l", "p")] [])
    (proves 0 ⟨"l", "p"⟩ ++ [.retire "l", .cancel 0, .advance 0, .advance 0, .retire "l", .advance 1])

/-- An admission that starts then is answered without a slot, for a claim that is no authority at any moment of
it. -/
theorem stale_lease_is_taken :
    ((∃ ch ∈ retirementUnderWay.changes, ch.kind = .register "new" ∧ ch.stage = .answered) ∧
      ∃ y ∈ (Run.exec step retirementUnderWay [.arrive (some ⟨"l", "new"⟩) "b", .ask 1 0]).yes,
        y ∉ retirementUnderWay.yes ∧ y.slot = none ∧ y.admission.claim = some ⟨"l", "new"⟩ ∧
          Claim.mk "l" "new" ∉ y.admission.during) ∧
    (∃ ch ∈ retirementRepeated.changes, ch.kind = .retire ∧ ch.stage = .answered) ∧
      ∃ y ∈ (Run.exec step retirementRepeated [.arrive (some ⟨"l", "p"⟩) "b", .ask 1 0]).yes,
        y ∉ retirementRepeated.yes ∧ y.slot = none ∧ y.admission.claim = some ⟨"l", "p"⟩ ∧
          Claim.mk "l" "p" ∉ y.admission.during := by
  decide +kernel

end DenEdge.Media
