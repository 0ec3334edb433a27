import DenEdge.Cache.Databases

/-!
# The count of open databases

The registry's bytes are those of the open databases of registered slots, of the databases about to be opened, and
of the compactions that run (`databases_accounted`), in every run in which the protocol index answers and no slot
leaves the registry under a call that waits for it. Where the index fails, or such a slot leaves, a charge is lost
(`failed_index_stays_charged`).
-/

namespace DenEdge.Databases

/-! ## What is charged -/

/-- The phases in which a call is to use its slot. -/
def Phase.entering : Phase → Bool
  | .waiting | .locked | .refused | .reserved => true
  | _ => false

/-- The phases in which a call has the lock. -/
def Phase.locking : Phase → Bool
  | .locked | .refused | .reserved | .leaving => true
  | _ => false

def one (b : Bool) : ℕ := if b then 1 else 0

namespace Manager

/-- Whether the slot holds an open database. -/
def opens (heap : List (ℕ × Slot)) (serial : ℕ) : ℕ := one ((Assoc.get heap serial).bind Slot.store).isSome

/-- The registered slots that hold an open database. -/
def openCount (w : Manager) : ℕ := Assoc.total (fun _ serial => opens w.heap serial) w.registry.slots

/-- The calls about to open a database. -/
def reservedCount (w : Manager) : ℕ := Assoc.total (fun _ call => one (call.phase = .reserved)) w.calls

/-- The compactions that run. -/
def compactingCount (w : Manager) : ℕ := Assoc.total (fun _ ref => one (ref.use = .compacting)) w.refs

end Manager

/-- What holds of slots, calls and locks. -/
structure Shape (w : Manager) : Prop where
  slots : (w.registry.slots.map Prod.fst).Nodup
  calls : (w.calls.map Prod.fst).Nodup
  refs : (w.refs.map Prod.fst).Nodup
  fresh : ∀ {serial slot}, Assoc.get w.heap serial = some slot → serial < w.made
  owner : ∀ {id serial}, Assoc.get w.registry.slots id = some serial →
    ∃ slot, Assoc.get w.heap serial = some slot ∧ slot.id = id
  mine : ∀ {c call}, Assoc.get w.calls c = some call →
    ∃ slot, Assoc.get w.heap call.serial = some slot ∧ slot.id = call.id
  entering : ∀ {c call}, Assoc.get w.calls c = some call → call.phase.entering = true →
    Assoc.get w.registry.slots call.id = some call.serial
  locking : ∀ {c call}, Assoc.get w.calls c = some call → call.phase.locking = true →
    ∃ slot, Assoc.get w.heap call.serial = some slot ∧ slot.lockedBy = some c ∧
      (call.phase = .reserved → slot.store = none)

/-- The bytes of the registry are those of what is charged. -/
def Balanced (config : Config) (w : Manager) : Prop :=
  w.registry.bytes =
    config.openBytes * (w.openCount + w.reservedCount) + config.compactionBytes * w.compactingCount

structure Sound (config : Config) (w : Manager) : Prop where
  shape : Shape w
  balanced : Balanced config w

variable {config : Config} {w w' : Manager}

theorem sound_init (config : Config) : Sound config Manager.init where
  shape :=
    { slots := List.nodup_nil
      calls := List.nodup_nil
      refs := List.nodup_nil
      fresh := nofun
      owner := nofun
      mine := nofun
      entering := nofun
      locking := fun h => by cases h }
  balanced := by
    simp [Balanced, Manager.init, Manager.openCount, Manager.reservedCount, Manager.compactingCount, Assoc.total]

namespace Manager

abbrev Calling (w : Manager) (c : ℕ) (call : Call) : Prop := Assoc.get w.calls c = some call

abbrev Holding (w : Manager) (serial : ℕ) (slot : Slot) : Prop := Assoc.get w.heap serial = some slot

abbrev Registers (w : Manager) (id : String) (serial : ℕ) : Prop := Assoc.get w.registry.slots id = some serial

/-- The weights of `reservedCount` and of `compactingCount`. -/
abbrev reserves (_ : ℕ) (call : Call) : ℕ := one (call.phase = .reserved)

abbrev compacts (_ : ℕ) (ref : Ref) : ℕ := one (ref.use = .compacting)

/-- No call is to use the slot. -/
def Unused (w : Manager) (serial : ℕ) : Prop :=
  ∀ {c call}, w.Calling c call → call.serial = serial → call.phase.entering = false

end Manager

/-! ## Calls, slots and locks -/

theorem calling_setCall {c c' : ℕ} {call call' : Call} (h : (w.setCall c call).Calling c' call') :
    c' = c ∧ call' = call ∨ c' ≠ c ∧ w.Calling c' call' := Assoc.get_of_set h

namespace Shape

section

variable (h : Shape w)
include h

/-- Two libraries do not share a slot. -/
theorem apart {id id' : String} {serial serial' : ℕ} (hget : w.Registers id serial)
    (hget' : w.Registers id' serial') (hne : id' ≠ id) : serial' ≠ serial := by
  rintro rfl
  obtain ⟨slot, hslot, hid⟩ := h.owner hget
  obtain ⟨slot', hslot', hid'⟩ := h.owner hget'
  rw [hslot] at hslot'
  cases hslot'
  exact hne (hid'.symm.trans hid)

variable {slot : Slot}

theorem lockedBy {c : ℕ} {call : Call} (hcall : w.Calling c call)
    (hslot : w.Holding call.serial slot) (hphase : call.phase.locking = true) :
    slot.lockedBy = some c ∧ (call.phase = .reserved → slot.store = none) := by
  obtain ⟨slot', hslot', hlocked⟩ := h.locking hcall hphase
  rw [hslot] at hslot'
  cases hslot'
  exact hlocked

theorem withBytes (bytes : ℕ) : Shape { w with registry := ⟨w.registry.slots, bytes⟩ } :=
  { h with }

theorem withRefs {refs : List (ℕ × Ref)} (hrefs : (refs.map Prod.fst).Nodup) : Shape { w with refs := refs } :=
  { h with refs := hrefs }

theorem setCall {c : ℕ} {call : Call} (hslot : w.Holding call.serial slot) (hid : slot.id = call.id)
    (hentering : call.phase.entering = true → w.Registers call.id call.serial)
    (hlocking : call.phase.locking = true → slot.lockedBy = some c ∧
      (call.phase = .reserved → slot.store = none)) :
    Shape (w.setCall c call) := by
  refine ⟨h.slots, Assoc.keys_set _ _ _ h.calls, h.refs, h.fresh, h.owner, ?_, ?_, ?_⟩
  · intro c' call' hcall'
    rcases calling_setCall hcall' with ⟨-, rfl⟩ | ⟨-, hold⟩
    · exact ⟨slot, hslot, hid⟩
    · exact h.mine hold
  · intro c' call' hcall' hphase
    rcases calling_setCall hcall' with ⟨-, rfl⟩ | ⟨-, hold⟩
    · exact hentering hphase
    · exact h.entering hold hphase
  · intro c' call' hcall' hphase
    rcases calling_setCall hcall' with ⟨rfl, rfl⟩ | ⟨-, hold⟩
    · exact ⟨slot, hslot, hlocking hphase⟩
    · exact h.locking hold hphase

/-- A slot changes and stays its library's, and whoever has its lock keeps it. -/
theorem setSlot {serial : ℕ} {slot' : Slot} (hslot : w.Holding serial slot) (hid : slot'.id = slot.id)
    (hlocks : ∀ {c call}, w.Calling c call → call.serial = serial → call.phase.locking = true →
      slot'.lockedBy = some c ∧ (call.phase = .reserved → slot'.store = none)) :
    Shape (w.setSlot serial slot') := by
  have howned : ∀ {s id}, (∃ slot, Assoc.get w.heap s = some slot ∧ slot.id = id) →
      ∃ slot, Assoc.get (Assoc.set w.heap serial slot') s = some slot ∧ slot.id = id := by
    rintro s id ⟨slot₁, hslot₁, hid₁⟩
    rw [Assoc.get_set]
    split_ifs with hs
    · rw [hs, hslot] at hslot₁
      cases hslot₁
      exact ⟨slot', rfl, hid.trans hid₁⟩
    · exact ⟨slot₁, hslot₁, hid₁⟩
  refine ⟨h.slots, h.calls, h.refs, ?_, fun hget => howned (h.owner hget), fun hcall => howned (h.mine hcall),
    h.entering, ?_⟩
  · intro s slot₁ hslot₁
    rw [Manager.setSlot, Assoc.get_set] at hslot₁
    split_ifs at hslot₁ with hs
    · rw [hs]
      exact h.fresh hslot
    · exact h.fresh hslot₁
  · intro c call hcall hphase
    rw [Manager.setSlot, Assoc.get_set]
    split_ifs with hs
    · exact ⟨slot', rfl, hlocks hcall hs hphase⟩
    · exact h.locking hcall hphase

/-- A slot that no call is to use leaves the registry. -/
theorem unregistered {id : String} {serial : ℕ} (bytes : ℕ) (hget : w.Registers id serial)
    (hunused : w.Unused serial) : Shape { w with registry := ⟨Assoc.erase w.registry.slots id, bytes⟩ } := by
  refine ⟨Assoc.keys_erase _ _ h.slots, h.calls, h.refs, h.fresh, ?_, h.mine, ?_, h.locking⟩
  · intro id' serial' hget'
    exact h.owner (Assoc.get_of_erase hget')
  · intro c call hcall hphase
    rw [Assoc.get_erase]
    have hregistered := h.entering hcall hphase
    split_ifs with heq
    · rw [heq, hget] at hregistered
      rw [hunused hcall (Option.some.inj hregistered).symm] at hphase
      cases hphase
    · exact hregistered

/-- Nobody is to use a slot for whose lock no call waits and which no other call has locked. -/
theorem unused {c : ℕ} {call : Call} (hcall : w.Calling c call)
    (hslot : w.Holding call.serial slot) (hwaiting : call.phase ≠ .waiting)
    (hlocked : slot.lockedBy ≠ some c) : call.phase.entering = false := by
  have hnotLocking : call.phase.locking = false := by
    by_contra hlocking
    exact hlocked (h.lockedBy hcall hslot (by simpa using hlocking)).1
  revert hwaiting hnotLocking
  cases call.phase <;> simp [Phase.locking, Phase.entering]

end

end Shape

/-! ## What is counted -/

theorem reservedCount_setCall (h : Shape w) (c : ℕ) (call : Call) :
    (w.setCall c call).reservedCount + Assoc.weightAt Manager.reserves w.calls c =
      w.reservedCount + one (call.phase = .reserved) :=
  Assoc.total_set Manager.reserves h.calls c call

variable {c serial : ℕ} {call : Call} {slot : Slot} {id : String}

theorem reservedCount_goes (h : Shape w) (hcall : w.Calling c call) (phase : Phase) :
    (w.setCall c { call with phase := phase }).reservedCount + one (call.phase = .reserved) =
      w.reservedCount + one (phase = .reserved) := by
  have hset := reservedCount_setCall h c { call with phase := phase }
  rwa [Assoc.weightAt_some _ hcall] at hset

theorem openCount_setSlot {slot' : Slot} (hslot : w.Holding serial slot)
    (hstore : slot'.store = slot.store) : (w.setSlot serial slot').openCount = w.openCount := by
  refine Assoc.total_congr fun e _ => ?_
  unfold Manager.opens
  rw [Manager.setSlot, Assoc.get_set]
  split_ifs with heq
  · rw [heq, hslot]
    simp [hstore]
  · rfl

/-- A database of a registered slot is opened or closed. -/
theorem openCount_registered (h : Shape w) (slot' : Slot) (hget : w.Registers id serial)
    (hslot : w.Holding serial slot) :
    (w.setSlot serial slot').openCount + one slot.store.isSome = w.openCount + one slot'.store.isSome := by
  have hupdate :=
    Assoc.total_update (fun _ => Manager.opens w.heap) (fun _ => Manager.opens (w.setSlot serial slot').heap)
    h.slots id (by
      intro e he hne
      have hapart := h.apart hget (Assoc.get_of_mem_nodup h.slots he) hne
      simp only [Manager.opens, Manager.setSlot, Assoc.get_set, if_neg hapart])
  have hafter : Manager.opens (w.setSlot serial slot').heap serial = one slot'.store.isSome := by
    simp [Manager.opens, Manager.setSlot, Assoc.get_set]
  rw [Assoc.weightAt_some _ hget, Assoc.weightAt_some _ hget, hafter, Manager.opens, hslot] at hupdate
  exact hupdate

/-- Unregistering a slot without an open database takes nothing off the count. -/
theorem openCount_unregistered (h : Shape w) (bytes : ℕ) (hget : w.Registers id serial)
    (hslot : w.Holding serial slot) (hempty : slot.store = none) :
    Manager.openCount { w with registry := ⟨Assoc.erase w.registry.slots id, bytes⟩ } = w.openCount := by
  have herase := Assoc.total_erase (fun _ => Manager.opens w.heap) h.slots id
  have hat : Manager.opens w.heap serial = 0 := by simp [Manager.opens, hslot, hempty, one]
  rwa [Assoc.weightAt_some _ hget, hat] at herase

/-- The bytes change with what is open and about to be opened. -/
theorem Balanced.of (h : Balanced config w) (a b : ℕ)
    (hcount : w'.openCount + w'.reservedCount + a = w.openCount + w.reservedCount + b) (hrefs : w'.refs = w.refs)
    (hbytes : w'.registry.bytes + config.openBytes * a = w.registry.bytes + config.openBytes * b) :
    Balanced config w' := by
  have hmul := congrArg (config.openBytes * ·) hcount
  have hcompacting : w'.compactingCount = w.compactingCount := by
    unfold Manager.compactingCount
    rw [hrefs]
  unfold Balanced at h ⊢
  rw [hcompacting]
  simp only [Nat.mul_add] at hmul h ⊢
  omega

theorem Balanced.charged (h : Balanced config w) (hone : 1 ≤ w.openCount + w.reservedCount) :
    config.openBytes ≤ w.registry.bytes := by
  have hmul := Nat.mul_le_mul_left config.openBytes hone
  rw [h]
  omega

/-! ## References -/

theorem compactingCount_setRef (h : Shape w) (r : ℕ) (ref : Ref) :
    (w.setRef r ref).compactingCount + Assoc.weightAt Manager.compacts w.refs r =
      w.compactingCount + one (ref.use = .compacting) :=
  Assoc.total_set Manager.compacts h.refs r ref

/-- A reference is handed out. -/
theorem Sound.setRef (h : Sound config w) {r : ℕ} (hfresh : Assoc.get w.refs r = none) {ref : Ref}
    (huse : ref.use ≠ .compacting) : Sound config (w.setRef r ref) := by
  have hcount := compactingCount_setRef h.shape r ref
  have hsame : (w.setRef r ref).compactingCount = w.compactingCount := by
    simpa [Assoc.weightAt_none _ hfresh, huse, one] using hcount
  have hbalanced := h.balanced
  refine ⟨h.shape.withRefs (Assoc.keys_set _ _ _ h.shape.refs), ?_⟩
  unfold Balanced at hbalanced ⊢
  rw [hsame]
  exact hbalanced

/-- The heap changes only where no library and no call has a slot. -/
theorem Sound.reheap (h : Sound config w) {heap : List (ℕ × Slot)} {made : ℕ}
    (hfresh : ∀ {serial slot}, Assoc.get heap serial = some slot → serial < made)
    (hregistered : ∀ {id serial}, w.Registers id serial → Assoc.get heap serial = Assoc.get w.heap serial)
    (hcalled : ∀ {c call}, w.Calling c call → Assoc.get heap call.serial = Assoc.get w.heap call.serial) :
    Sound config { w with heap := heap, made := made } := by
  obtain ⟨⟨slots, calls, refs, -, owner, mine, entering, locking⟩, hbalanced⟩ := h
  refine ⟨⟨slots, calls, refs, hfresh, ?_, ?_, entering, ?_⟩, hbalanced.of 0 0 ?_ rfl rfl⟩
  · intro id serial hget
    rw [hregistered hget]
    exact owner hget
  · intro c call hcall
    rw [hcalled hcall]
    exact mine hcall
  · intro c call hcall hlocking
    rw [hcalled hcall]
    exact locking hcall hlocking
  · have hopen : Manager.openCount { w with heap := heap, made := made } = w.openCount := by
      refine Assoc.total_congr fun e he => ?_
      unfold Manager.opens
      rw [hregistered (Assoc.get_of_mem_nodup slots he)]
    rw [hopen]
    rfl

/-! ## Closing idle databases -/

/-- Idle databases of registered slots have been closed, one after another. -/
inductive Evicted (config : Config) (own : Option ℕ) (w : Manager) : Manager → Prop
  | refl : Evicted config own w w
  | evict {w' : Manager} {id : String} {serial : ℕ} (h : Evicted config own w w')
    (hget : w'.Registers id serial) (hidle : w'.evictable own serial = true) :
    Evicted config own w (w'.evict config id)

theorem evictable_eq {own : Option ℕ} (h : w.evictable own serial = true) :
    ∃ slot store, w.Holding serial slot ∧ slot.store = some store ∧ w.held serial = false := by
  unfold Manager.evictable at h
  split at h
  · cases h
  rename_i slot hslot
  split at h
  · cases h
  rename_i store hstore
  simp only [Bool.and_eq_true, Option.isNone_iff_eq_none, Bool.not_eq_true'] at h
  exact ⟨slot, store, hslot, hstore, h.1.2⟩

theorem evict_eq (hget : w.Registers id serial) (hslot : w.Holding serial slot) :
    w.evict config id = { w with
      registry := ⟨Assoc.erase w.registry.slots id, w.registry.bytes - config.openBytes⟩
      heap := Assoc.set w.heap serial { slot with store := none } } := by
  unfold Manager.evict
  simp only [hget, hslot]

theorem not_held (h : w.held serial = false) (hcall : w.Calling c call) : call.serial ≠ serial := by
  intro heq
  have hany : w.held serial = true := List.any_eq_true.mpr ⟨(c, call), Assoc.mem_of_get hcall, by simpa using heq⟩
  rw [h] at hany
  cases hany

/-- Nobody but the call has its slot. -/
theorem others_apart (h : (w.calls.any fun e => e.1 ≠ c && e.2.serial = serial) = false) {c' : ℕ}
    (hcall : w.Calling c' call) (hc : c' ≠ c) : call.serial ≠ serial := by
  intro hserial
  have hany : (w.calls.any fun e => e.1 ≠ c && e.2.serial = serial) = true :=
    List.any_eq_true.mpr ⟨(c', call), Assoc.mem_of_get hcall, by simp [hc, hserial]⟩
  rw [h] at hany
  cases hany

section

variable (h : Sound config w) (hget : w.Registers id serial)
include h hget

theorem Sound.unregistered
    (hslot : w.Holding serial slot) (hempty : slot.store = none) (hunused : w.Unused serial) :
    Sound config { w with registry := ⟨Assoc.erase w.registry.slots id, w.registry.bytes⟩ } := by
  have hopen := openCount_unregistered h.shape w.registry.bytes hget hslot hempty
  refine ⟨h.shape.unregistered _ hget hunused, h.balanced.of 0 0 ?_ rfl rfl⟩
  rw [hopen]
  rfl

/-- A slot leaves the registry with its database closed, and no call is to use it. -/
theorem Sound.closed
    (hslot : w.Holding serial slot) (hopen : slot.store.isSome = true) (hunused : w.Unused serial) :
    Sound config (w.evict config id) := by
  have hshape : Shape (w.setSlot serial { slot with store := none }) := by
    refine h.shape.setSlot hslot rfl ?_
    rintro c call hcall rfl hphase
    exact ⟨(h.shape.lockedBy hcall hslot hphase).1, fun _ => rfl⟩
  have hslot' : Assoc.get (w.setSlot serial { slot with store := none }).heap serial =
      some { slot with store := none } := by
    simp [Manager.setSlot, Assoc.get_set]
  have hcount := openCount_registered h.shape { slot with store := none } hget hslot
  have hempty := openCount_unregistered hshape (w.registry.bytes - config.openBytes) hget hslot' rfl
  simp only [hopen, one, if_true, Option.isSome_none, Bool.false_eq_true, if_false, Nat.add_zero] at hcount
  have hcharged := h.balanced.charged (by omega)
  rw [evict_eq hget hslot]
  refine ⟨hshape.unregistered _ hget hunused, h.balanced.of 1 0 ?_ rfl ?_⟩
  · have hsum := congrArg (· + w.reservedCount) (hempty ▸ hcount)
    simp only [Nat.add_right_comm _ 1] at hsum
    exact hsum
  · change w.registry.bytes - config.openBytes + config.openBytes * 1 = w.registry.bytes + config.openBytes * 0
    omega

theorem Sound.evict {own : Option ℕ}
    (hidle : w.evictable own serial = true) : Sound config (w.evict config id) := by
  obtain ⟨slot, store, hslot, hstore, hheld⟩ := evictable_eq hidle
  refine h.closed hget hslot (by simp [hstore]) ?_
  intro c call hcall heq
  exact absurd heq (not_held hheld hcall)

end

namespace Evicted

variable {own : Option ℕ}

theorem sound (h : Evicted config own w w') (hw : Sound config w) : Sound config w' := by
  induction h with
  | refl => exact hw
  | evict h hget hidle ih => exact ih.evict hget hidle

/-- What calls and references have stays. -/
theorem frame (h : Evicted config own w w') : w'.calls = w.calls ∧ w'.refs = w.refs := by
  induction h with
  | refl => exact ⟨rfl, rfl⟩
  | evict h hget hidle ih =>
    obtain ⟨slot, store, hslot, -⟩ := evictable_eq hidle
    rw [evict_eq hget hslot]
    exact ih

theorem heap (h : Evicted config own w w') {c : ℕ} {call : Call} (hcall : Assoc.get w.calls c = some call) :
    Assoc.get w'.heap call.serial = Assoc.get w.heap call.serial := by
  induction h with
  | refl => rfl
  | evict h hget hidle ih =>
    obtain ⟨slot, store, hslot, -, hheld⟩ := evictable_eq hidle
    rw [← h.frame.1] at hcall
    have hne := not_held hheld hcall
    rw [evict_eq hget hslot]
    simp only [Assoc.get_set, if_neg hne]
    exact ih

end Evicted

theorem loop_evicted (full : Manager → Bool) (may : String → Bool) (own : Option ℕ) (rank : String → ℕ) (n : ℕ)
    (h : Sound config w) :
    Evicted config own w (Evict.loop full (Manager.victim may own rank) (Manager.evict config) n w).2 := by
  refine Evict.loop_inv (I := fun w' => Evicted config own w w') (fun w' id hw' hvictim => ?_) n .refl
  obtain ⟨serial, hmem, hmay⟩ := Evict.mem_of_least hvictim
  have hget := Assoc.get_of_mem_nodup (hw'.sound h).shape.slots hmem
  exact .evict hw' hget ((Bool.and_eq_true _ _).mp hmay).2

section

variable (h : Sound config w)
include h

/-- What reserving room has done. -/
theorem reserveOpen_spec (id : String) (rank : String → ℕ) :
    ∃ w', Evicted config none w w' ∧ (w.reserveOpen config id rank = (false, w') ∨
      w.reserveOpen config id rank =
        (true, { w' with registry := { w'.registry with bytes := w'.registry.bytes + config.openBytes } })) := by
  unfold Manager.reserveOpen
  have hevicted :=
    loop_evicted (fun w : Manager => config.cap < w.registry.bytes + config.openBytes) (fun key => key ≠ id) none
    rank w.registry.slots.length h
  revert hevicted
  generalize Evict.loop (fun w : Manager => decide (config.cap < w.registry.bytes + config.openBytes))
    (Manager.victim (fun key => decide (key ≠ id)) none rank) (Manager.evict config)
    w.registry.slots.length w = looped
  obtain ⟨room, w'⟩ := looped
  intro hevicted
  refine ⟨w', hevicted, ?_⟩
  cases room with
  | false => exact .inl rfl
  | true => exact .inr rfl

/-! ## The steps of a call -/

/-- A step of a call that is in some phase. -/
theorem proceed_sound (c : ℕ) (phase : Phase) (f : Call → Slot → Manager)
    (hf : ∀ call slot, w.Calling c call → w.Holding call.serial slot → call.phase = phase →
      Sound config (f call slot)) : Sound config (w.proceed c phase f) := by
  unfold Manager.proceed
  split
  · exact h
  rename_i call hcall
  split
  · exact h
  rename_i slot hslot
  split_ifs with hphase
  · exact hf call slot hcall hslot hphase
  · exact h

/-- A slot changes, and not the database it holds. -/
theorem Sound.setSlot {slot' : Slot} (hslot : w.Holding serial slot)
    (hid : slot'.id = slot.id) (hstore : slot'.store = slot.store)
    (hlocks : ∀ {c call}, w.Calling c call → call.serial = serial → call.phase.locking = true →
      slot'.lockedBy = some c) : Sound config (w.setSlot serial slot') := by
  refine ⟨h.shape.setSlot hslot hid ?_, h.balanced.of 0 0 ?_ rfl rfl⟩
  · rintro c call hcall rfl hphase
    rw [hstore]
    exact ⟨hlocks hcall rfl hphase, (h.shape.lockedBy hcall hslot hphase).2⟩
  · rw [openCount_setSlot hslot hstore]
    rfl

section

variable (hcall : w.Calling c call) (hslot : w.Holding call.serial slot)
include hcall hslot

/-- A call goes on to another phase, and a database it is to open is charged. -/
theorem Sound.goes (phase : Phase) {bytes : ℕ}
    (hentering : phase.entering = true → call.phase.entering = true)
    (hlocking : phase.locking = true → slot.lockedBy = some c ∧ (phase = .reserved → slot.store = none))
    (hbytes : bytes + config.openBytes * one (call.phase = .reserved) =
      w.registry.bytes + config.openBytes * one (phase = .reserved)) :
    Sound config { w with
      registry := ⟨w.registry.slots, bytes⟩
      calls := Assoc.set w.calls c { call with phase := phase } } := by
  obtain ⟨slot', hslot', hid⟩ := h.shape.mine hcall
  rw [hslot] at hslot'
  cases hslot'
  have hshape : Shape (w.setCall c { call with phase := phase }) := by
    refine h.shape.setCall hslot hid (fun hphase => ?_) hlocking
    have hregistered := h.shape.entering hcall (hentering hphase)
    exact hregistered
  have hcount := reservedCount_goes h.shape hcall phase
  refine ⟨hshape.withBytes bytes, h.balanced.of _ _ ?_ rfl hbytes⟩
  rw [Nat.add_assoc, Nat.add_assoc, ← hcount]
  rfl

/-- A call goes on that opens no database. -/
theorem Sound.passes (phase : Phase)
    (hentering : phase.entering = true → call.phase.entering = true)
    (hlocking : phase.locking = true → slot.lockedBy = some c) (hbefore : call.phase ≠ .reserved)
    (hafter : phase ≠ .reserved) : Sound config (w.setCall c { call with phase := phase }) := by
  refine h.goes hcall hslot phase hentering (fun hphase => ⟨hlocking hphase, fun hres => absurd hres hafter⟩) ?_
  simp only [hbefore, hafter]

/-- A call that has the lock is over. -/
theorem leaving_sound (hphase : call.phase = .locked ∨ call.phase = .refused) :
    Sound config (w.setCall c { call with phase := .leaving }) := by
  have hlocking : call.phase.locking = true := by rcases hphase with hp | hp <;> rw [hp] <;> rfl
  have hnot : call.phase ≠ .reserved := by rcases hphase with hp | hp <;> rw [hp] <;> simp
  exact h.passes hcall hslot .leaving (nofun)
    (fun _ => (h.shape.lockedBy hcall hslot hlocking).1) hnot (by simp)

/-- The database of a call that has charged it is in its slot. -/
theorem stored_sound {store : ℕ} (hphase : call.phase = .reserved) :
    Sound config ((w.setSlot call.serial { slot with store := some store }).setCall c
      { call with phase := .leaving }) := by
  obtain ⟨hlocked, hempty⟩ := h.shape.lockedBy hcall hslot (by rw [hphase]; rfl)
  obtain ⟨slot', hslot', hid⟩ := h.shape.mine hcall
  rw [hslot] at hslot'
  cases hslot'
  have hget := h.shape.entering hcall (by rw [hphase]; rfl)
  have hleaving : Shape (w.setCall c { call with phase := .leaving }) :=
    h.shape.setCall hslot hid (nofun) (fun _ => ⟨hlocked, nofun⟩)
  have hreserved := reservedCount_goes h.shape hcall .leaving
  have hopen := openCount_registered hleaving { slot with store := some store } hget hslot
  simp only [hphase, hempty hphase, one, decide_true, reduceCtorEq, decide_false, Option.isSome_none,
    Option.isSome_some, if_true, Bool.false_eq_true, if_false, Nat.add_zero] at hreserved hopen
  refine ⟨hleaving.setSlot hslot rfl ?_, h.balanced.of 0 0 ?_ rfl rfl⟩
  · intro c' call' hcall' hserial hlocking
    rw [← hserial] at hslot
    refine ⟨(hleaving.lockedBy hcall' hslot hlocking).1, fun hres => ?_⟩
    -- the lock is the call's own, and its charge is for what it has opened
    have hc := (hleaving.lockedBy hcall' hslot hlocking).1
    rw [hlocked] at hc
    cases hc
    rcases calling_setCall hcall' with ⟨-, rfl⟩ | ⟨hne, -⟩
    · cases hres
    · exact absurd rfl hne
  · have hsame : (w.setCall c { call with phase := .leaving }).openCount = w.openCount := rfl
    have hsum : ((w.setCall c { call with phase := .leaving }).setSlot call.serial
        { slot with store := some store }).openCount +
        (w.setCall c { call with phase := .leaving }).reservedCount = w.openCount + w.reservedCount := by
      omega
    exact hsum

/-- The charge of a database that is not opened is given back. -/
theorem given_back_sound (hphase : call.phase = .reserved) :
    Sound config { w with
      registry := ⟨w.registry.slots, w.registry.bytes - config.openBytes⟩
      calls := Assoc.set w.calls c { call with phase := .leaving } } := by
  have hlocked := (h.shape.lockedBy hcall hslot (by rw [hphase]; rfl)).1
  have hreserved := reservedCount_goes h.shape hcall .leaving
  simp only [hphase, one, decide_true, reduceCtorEq, decide_false, if_true, Bool.false_eq_true, if_false,
    Nat.add_zero] at hreserved
  have hcharged := h.balanced.charged (by omega)
  refine h.goes hcall hslot .leaving (nofun) (fun _ => ⟨hlocked, nofun⟩) ?_
  simp only [hphase, one, decide_true, reduceCtorEq, decide_false, if_true, Bool.false_eq_true, if_false]
  omega

end

theorem lock_sound (c : ℕ) : Sound config (w.lock c) := by
  refine proceed_sound h c .waiting _ ?_
  intro call slot hcall hslot hphase
  split_ifs with hfree
  · have hset : Sound config (w.setSlot call.serial { slot with lockedBy := some c }) := by
      refine h.setSlot hslot rfl rfl ?_
      intro c' call' hcall' hserial hlocking
      rw [← hserial] at hslot
      rw [(h.shape.lockedBy hcall' hslot hlocking).1] at hfree
      cases hfree
    refine hset.passes hcall (Assoc.get_set .. |>.trans (if_pos rfl)) .locked ?_ (fun _ => rfl)
      (by simp [hphase]) (by simp)
    intro _
    rw [hphase]
    rfl
  · exact h

theorem found_sound (c : ℕ) (accepts : Bool) (r : ℕ) : Sound config (w.found c accepts r) := by
  refine proceed_sound h c .locked _ ?_
  intro call slot hcall hslot hphase
  have hleaving := leaving_sound h hcall hslot (.inl hphase)
  split
  · exact h
  split_ifs with hfresh haccepts
  · exact h
  · have hnone : Assoc.get w.refs r = none := by simpa using hfresh
    exact hleaving.setRef hnone (by simp)
  · exact hleaving

theorem tidyFailed_sound (c : ℕ) : Sound config (w.tidyFailed c) := by
  refine proceed_sound h c .locked _ ?_
  intro call slot hcall hslot hphase
  split_ifs
  · exact leaving_sound h hcall hslot (.inl hphase)
  · exact h

theorem reserve_sound (c : ℕ) (rank : String → ℕ) : Sound config (w.reserve config c rank) := by
  refine proceed_sound h c .locked _ ?_
  intro call slot hcall hslot hphase
  by_cases hempty : slot.store = none
  swap
  · rw [if_neg hempty]
    exact h
  rw [if_pos hempty]
  obtain ⟨w', hevicted, hanswer⟩ := reserveOpen_spec h call.id rank
  have hw' := hevicted.sound h
  have hcall' : w'.Calling c call := (congrArg (Assoc.get · c) hevicted.frame.1).trans hcall
  have hslot' : w'.Holding call.serial slot := (hevicted.heap hcall).trans hslot
  have hlocked := (hw'.shape.lockedBy hcall' hslot' (by rw [hphase]; rfl)).1
  rcases hanswer with hrefused | hgranted
  · rw [hrefused]
    split_ifs
    · refine hw'.passes hcall' hslot' .refused ?_ (fun _ => hlocked) (by simp [hphase]) (by simp)
      intro _
      rw [hphase]
      rfl
    · exact leaving_sound hw' hcall' hslot' (.inl hphase)
  · rw [hgranted]
    refine hw'.goes hcall' hslot' .reserved (fun _ => by rw [hphase]; rfl)
      (fun _ => ⟨hlocked, fun _ => hempty⟩) ?_
    simp [hphase, one]

theorem unregister_sound (c : ℕ) : Sound config (w.unregister c) := by
  refine proceed_sound h c .refused _ ?_
  intro call slot hcall hslot hphase
  have hleaving := leaving_sound h hcall hslot (.inr hphase)
  simp only
  split_ifs with halone
  · obtain ⟨hget, hothers, hempty⟩ := halone
    refine hleaving.unregistered hget hslot hempty ?_
    intro c' call' hcall' hserial
    rcases calling_setCall hcall' with ⟨-, rfl⟩ | ⟨hc, hcall'⟩
    · rfl
    · exact absurd hserial (others_apart hothers hcall' hc)
  · exact hleaving

theorem opened_sound (c store r : ℕ) : Sound config (w.opened c store true r) := by
  refine proceed_sound h c .reserved _ ?_
  intro call slot hcall hslot hphase
  split_ifs with hfresh hindexed
  · exact h
  · have hnone : Assoc.get w.refs r = none := by simpa using hfresh
    exact (stored_sound h hcall hslot hphase).setRef hnone (by simp)
  · exact absurd rfl hindexed

/-- A database is not opened, and its slot leaves the registry, where no other call waits for the slot. -/
theorem openFailed_sound (c : ℕ) (halone : ∀ call, w.Calling c call →
      ∀ c' call', w.Calling c' call' → c' ≠ c → call'.serial = call.serial → call'.phase ≠ .waiting) :
    Sound config (w.openFailed config c) := by
  refine proceed_sound h c .reserved _ ?_
  intro call slot hcall hslot hphase
  have hback := given_back_sound h hcall hslot hphase
  obtain ⟨hlocked, hempty⟩ := h.shape.lockedBy hcall hslot (by rw [hphase]; rfl)
  have hget := h.shape.entering hcall (by rw [hphase]; rfl)
  rw [if_pos hget]
  refine hback.unregistered hget hslot (hempty hphase) ?_
  intro c' call' hcall' hserial
  rcases calling_setCall hcall' with ⟨-, rfl⟩ | ⟨hc, hcall'⟩
  · rfl
  · refine h.shape.unused hcall' (hserial ▸ hslot) (halone call hcall c' call' hcall' hc hserial) ?_
    rw [hlocked]
    exact fun heq => hc (Option.some.inj heq).symm

theorem unlock_sound (c : ℕ) : Sound config (w.unlock c) := by
  refine proceed_sound h c .leaving _ ?_
  intro call slot hcall hslot hphase
  have hlocked := (h.shape.lockedBy hcall hslot (by rw [hphase]; rfl)).1
  have hleft : Sound config (w.setCall c { call with phase := .left }) :=
    h.passes hcall hslot .left (nofun) (nofun) (by simp [hphase])
      (by simp)
  refine hleft.setSlot hslot rfl rfl ?_
  intro c' call' hcall' hserial hlocking
  rw [← hserial] at hslot
  have hc := (hleft.shape.lockedBy hcall' hslot hlocking).1
  rw [hlocked] at hc
  cases hc
  rcases calling_setCall hcall' with ⟨-, rfl⟩ | ⟨hne, -⟩
  · cases hlocking
  · exact absurd rfl hne

theorem release_sound (c : ℕ) : Sound config (w.release c) := by
  refine proceed_sound h c .left _ ?_
  intro call slot hcall hslot hphase
  have hget : ∀ {c' call'}, Assoc.get (Assoc.erase w.calls c) c' = some call' →
      c' ≠ c ∧ w.Calling c' call' := by
    intro c' call' hcall'
    rw [Assoc.get_erase] at hcall'
    split_ifs at hcall' with hc
    exact ⟨hc, hcall'⟩
  set w' : Manager := { w with calls := Assoc.erase w.calls c }
  have hreserved : w'.reservedCount = w.reservedCount := by
    have herase := Assoc.total_erase Manager.reserves h.shape.calls c
    rw [Assoc.weightAt_some _ hcall, Manager.reserves, hphase] at herase
    exact herase
  have hbalanced := h.balanced
  have hw' : Sound config w' := by
    obtain ⟨slots, calls, refs, fresh, owner, mine, entering, locking⟩ := h.shape
    refine ⟨⟨slots, Assoc.keys_erase _ _ calls, refs, fresh, owner, fun hc => mine (hget hc).2,
      fun hc => entering (hget hc).2, fun hc => locking (hget hc).2⟩, ?_⟩
    unfold Balanced at hbalanced ⊢
    rw [hreserved]
    exact hbalanced
  simp only
  split_ifs with hkept
  · exact hw'
  -- the slot is in no library's place, and nobody has it
  rw [not_or, Bool.not_eq_true] at hkept
  obtain ⟨hgone, hothers⟩ := hkept
  have hunregistered : ∀ {id serial}, w.Registers id serial → serial ≠ call.serial := by
    rintro id serial hregistered rfl
    obtain ⟨slot₁, hslot₁, hid₁⟩ := h.shape.owner hregistered
    obtain ⟨slot₂, hslot₂, hid₂⟩ := h.shape.mine hcall
    rw [hslot₁] at hslot₂
    cases hslot₂
    rw [← hid₁, hid₂] at hregistered
    exact hgone hregistered
  have hheap : ∀ {serial}, serial ≠ call.serial →
      Assoc.get (Assoc.erase w.heap call.serial) serial = Assoc.get w.heap serial := by
    intro serial hne
    rw [Assoc.get_erase, if_neg hne]
  refine hw'.reheap ?_ (fun hregistered => hheap (hunregistered hregistered)) fun hcall' => ?_
  · intro serial slot' hslot'
    exact h.shape.fresh (Assoc.get_of_erase hslot')
  · obtain ⟨hc, hcall'⟩ := hget hcall'
    exact hheap (others_apart hothers hcall' hc)

/-- A call comes in with the slot that is registered for its library. -/
theorem entered_sound (hfresh : Assoc.get w.calls c = none)
    (hget : w.Registers id serial) {inserted : Bool} {phase : Phase}
    (hphase : phase = .waiting ∨ phase = .peeking) :
    Sound config (w.setCall c ⟨id, serial, inserted, phase⟩) := by
  obtain ⟨slot, hslot, hid⟩ := h.shape.owner hget
  have hunlocked : phase.locking ≠ true := by rcases hphase with hp | hp <;> rw [hp] <;> simp [Phase.locking]
  have hcount := reservedCount_setCall h.shape c ⟨id, serial, inserted, phase⟩
  have hnot : one (decide (phase = Phase.reserved)) = 0 := by rcases hphase with hp | hp <;> rw [hp] <;> rfl
  rw [Assoc.weightAt_none _ hfresh, Nat.add_zero, hnot] at hcount
  refine ⟨h.shape.setCall hslot hid (fun _ => hget) (fun hlocking => absurd hlocking hunlocked),
    h.balanced.of 0 0 ?_ rfl rfl⟩
  rw [hcount]
  rfl

/-- A slot is made for a library that has none. -/
theorem made_sound (hget : Assoc.get w.registry.slots id = none) (now : ℕ) :
    Sound config { w with
      registry := { w.registry with slots := Assoc.set w.registry.slots id w.made }
      heap := Assoc.set w.heap w.made ⟨id, none, none, now⟩
      made := w.made + 1 } := by
  set heap : List (ℕ × Slot) := Assoc.set w.heap w.made ⟨id, none, none, now⟩
  have hnew : Assoc.get heap w.made = some ⟨id, none, none, now⟩ := by simp [heap, Assoc.get_set]
  have hkept : ∀ {serial id}, (∃ slot, w.Holding serial slot ∧ slot.id = id) →
      Assoc.get heap serial = Assoc.get w.heap serial := by
    rintro serial id ⟨slot, hslot, -⟩
    rw [Assoc.get_set, if_neg (Nat.ne_of_lt (h.shape.fresh hslot))]
  have hheap : Sound config { w with heap := heap, made := w.made + 1 } := by
    refine h.reheap ?_ (fun hregistered => hkept (h.shape.owner hregistered)) fun hcall =>
      hkept (h.shape.mine hcall)
    intro serial slot hslot
    rw [Assoc.get_set] at hslot
    split_ifs at hslot with heq
    · omega
    · exact Nat.lt_succ_of_lt (h.shape.fresh hslot)
  -- the new slot holds no database, so registering it counts for nothing
  obtain ⟨⟨slots, calls, refs, fresh, owner, mine, entering, locking⟩, hbalanced⟩ := hheap
  refine ⟨⟨Assoc.keys_set _ _ _ slots, calls, refs, fresh, ?_, mine, ?_, locking⟩, hbalanced.of 0 0 ?_ rfl rfl⟩
  · intro id' serial hget'
    rcases Assoc.get_of_set hget' with ⟨heq, rfl⟩ | ⟨-, hget'⟩
    · exact ⟨_, hnew, heq.symm⟩
    · exact owner hget'
  · intro c call hcall hentering
    have hregistered := entering hcall hentering
    rw [Assoc.get_set, if_neg]
    · exact hregistered
    · intro heq
      rw [heq, hget] at hregistered
      cases hregistered
  · have hset := Assoc.total_set (fun _ => Manager.opens heap) slots id w.made
    rw [Assoc.weightAt_none _ hget, Manager.opens, hnew] at hset
    exact congrArg (· + w.reservedCount) hset

theorem enter_sound (c : ℕ) (id : String) (now : ℕ) : Sound config (w.enter c id now) := by
  unfold Manager.enter
  split_ifs with hnew
  · exact h
  have hfresh : Assoc.get w.calls c = none := by simpa using (not_or.mp hnew).2
  split
  · rename_i serial hget
    split
    · exact h
    · rename_i slot hslot
      have hused : Sound config (w.setSlot serial { slot with lastUsed := now }) := by
        refine h.setSlot hslot rfl rfl ?_
        rintro c' call hcall rfl hlocking
        exact (h.shape.lockedBy hcall hslot hlocking).1
      exact entered_sound hused hfresh hget (.inl rfl)
  · rename_i hget
    have hmade := made_sound h hget now
    exact entered_sound hmade hfresh (Assoc.get_set .. |>.trans (if_pos rfl)) (.inl rfl)

theorem peek_sound (c : ℕ) (id : String) : Sound config (w.peek c id) := by
  unfold Manager.peek
  split_ifs with hnew
  · exact h
  have hfresh : Assoc.get w.calls c = none := by simpa using hnew
  split
  · exact h
  · rename_i serial hget
    exact entered_sound h hfresh hget (.inr rfl)

theorem read_sound (c r : ℕ) : Sound config (w.read c r) := by
  refine proceed_sound h c .peeking _ ?_
  intro call slot hcall hslot hphase
  have hleft : Sound config (w.setCall c { call with phase := .left }) := by
    refine h.passes hcall hslot .left (nofun) (nofun)
      (by simp [hphase]) (by simp)
  split_ifs with hskip
  · exact h
  split
  · exact hleft
  · have hnone : Assoc.get w.refs r = none := by
      rw [not_or] at hskip
      simpa using hskip.2
    exact hleft.setRef hnone (by simp)

/-! ## Leases and removals -/

/-- A reference changes its use, and the bytes by what compactions it then is. -/
theorem setRef_sound {r : ℕ} {ref : Ref} (href : Assoc.get w.refs r = some ref) (use : Use)
    {bytes : ℕ} (hbytes : bytes + config.compactionBytes * one (ref.use = .compacting) =
      w.registry.bytes + config.compactionBytes * one (use = .compacting)) :
    Sound config
      { w with registry := ⟨w.registry.slots, bytes⟩, refs := Assoc.set w.refs r { ref with use := use } } := by
  have hcount := compactingCount_setRef h.shape r { ref with use := use }
  rw [Assoc.weightAt_some _ href, Manager.compacts] at hcount
  have hmul := congrArg (config.compactionBytes * ·) hcount
  simp only [Nat.mul_add] at hmul
  have hbalanced : w.registry.bytes = _ := h.balanced
  refine ⟨(h.shape.withRefs (Assoc.keys_set _ _ _ h.shape.refs)).withBytes bytes, ?_⟩
  change bytes = config.openBytes * (w.openCount + w.reservedCount) +
    config.compactionBytes * (w.setRef r { ref with use := use }).compactingCount
  omega

theorem compact_sound (r : ℕ) : Sound config (w.compact config r) := by
  unfold Manager.compact
  split
  · exact h
  rename_i ref href
  split_ifs with hroom
  · refine setRef_sound h href .compacting ?_
    simp [hroom.1, one]
  · exact h

theorem compacted_sound (r : ℕ) : Sound config (w.compacted config r) := by
  unfold Manager.compacted
  split
  · exact h
  rename_i ref href
  split_ifs with huse
  · refine setRef_sound h href .lease ?_
    -- the compaction is counted, so its bytes are there to be given back
    have hcounted : 1 ≤ w.compactingCount := by
      have hle := Assoc.weightAt_le_total Manager.compacts h.shape.refs r
      rw [Assoc.weightAt_some _ href, Manager.compacts, huse] at hle
      exact hle
    have hmul := Nat.mul_le_mul_left config.compactionBytes hcounted
    have hbalanced : w.registry.bytes = _ := h.balanced
    simp only [huse, one, decide_true, if_true, Nat.mul_one] at hmul ⊢
    simp only [reduceCtorEq, decide_false, Bool.false_eq_true, if_false, Nat.mul_zero, Nat.add_zero]
    omega
  · exact h

theorem dropLease_sound (r : ℕ) (rank : String → ℕ) : Sound config (w.dropLease config r rank) := by
  unfold Manager.dropLease
  split
  · exact h
  rename_i ref href
  split_ifs with huse
  · have hevicted := loop_evicted (fun w : Manager => config.retained * config.openBytes < w.registry.bytes)
      (fun _ => true) (some r) rank w.registry.slots.length h
    have hw' := hevicted.sound h
    have href' := href
    rw [← hevicted.frame.2] at href'
    refine setRef_sound hw' href' .dropped ?_
    simp [huse, one]
  · exact h

theorem gone_sound (r : ℕ) : Sound config (w.gone r) := by
  unfold Manager.gone
  split
  · exact h
  rename_i ref href
  split_ifs with huse
  · have herase := Assoc.total_erase Manager.compacts h.shape.refs r
    have hat : one (ref.use = .compacting) = 0 := by rcases huse with hu | hu <;> rw [hu] <;> rfl
    rw [Assoc.weightAt_some _ href, Manager.compacts, hat] at herase
    have hbalanced := h.balanced
    refine ⟨h.shape.withRefs (Assoc.keys_erase _ _ h.shape.refs), ?_⟩
    unfold Balanced at hbalanced ⊢
    rw [show Manager.compactingCount { w with refs := Assoc.erase w.refs r } = w.compactingCount from herase]
    exact hbalanced
  · exact h

/-- A library is removed while no call waits for its slot. -/
theorem remove_sound (id : String) (halone : ∀ serial, w.Registers id serial →
      ∀ c call, w.Calling c call → call.serial = serial → call.phase ≠ .waiting) :
    Sound config (w.remove config id) := by
  unfold Manager.remove
  split
  · exact h
  rename_i serial hget
  split
  · exact h
  rename_i slot hslot
  split_ifs with hfree
  · exact h
  have hunused : w.Unused serial := by
    intro c call hcall hserial
    refine h.shape.unused hcall (hserial ▸ hslot) (halone serial hget c call hcall hserial) fun hlocked => ?_
    exact hfree (by simp [hlocked])
  split
  · rename_i hempty
    exact h.unregistered hget hslot hempty hunused
  · rename_i store hstore
    split_ifs
    · exact h
    · exact h.closed hget hslot (by simp [hstore]) hunused

end

/-! ## Runs -/

/-- The protocol index answers, and no slot leaves the registry under a call that waits for its lock: none by a
database that is not opened, and none by a removal. -/
def Careful (w : Manager) : Manager.Event → Prop
  | .opened _ _ indexed _ => indexed = true
  | .openFailed c =>
    ∀ call ∈ Assoc.get w.calls c, ∀ e ∈ w.calls, e.1 ≠ c → e.2.serial = call.serial → e.2.phase ≠ .waiting
  | .remove id =>
    ∀ serial ∈ Assoc.get w.registry.slots id, ∀ e ∈ w.calls, e.2.serial = serial → e.2.phase ≠ .waiting
  | _ => True

theorem step_sound (h : Sound config w) (event : Manager.Event) (hcareful : Careful w event) :
    Sound config (w.step config event) := by
  cases event with
  | enter c id now => exact enter_sound h c id now
  | lock c => exact lock_sound h c
  | found c accepts r => exact found_sound h c accepts r
  | tidyFailed c => exact tidyFailed_sound h c
  | reserve c rank => exact reserve_sound h c rank
  | unregister c => exact unregister_sound h c
  | opened c store indexed r =>
    cases (hcareful : indexed = true)
    exact opened_sound h c store r
  | openFailed c =>
    refine openFailed_sound h c fun call hcall c' call' hcall' hne hserial => ?_
    exact hcareful call hcall (c', call') (Assoc.mem_of_get hcall') hne hserial
  | unlock c => exact unlock_sound h c
  | release c => exact release_sound h c
  | peek c id => exact peek_sound h c id
  | read c r => exact read_sound h c r
  | compact r => exact compact_sound h r
  | compacted r => exact compacted_sound h r
  | dropLease r rank => exact dropLease_sound h r rank
  | gone r => exact gone_sound h r
  | remove id =>
    refine remove_sound h id fun serial hget c call hcall hserial => ?_
    exact hcareful serial hget (c, call) (Assoc.mem_of_get hcall) hserial

/-- No call is in progress and no compaction runs. -/
def Quiescent (w : Manager) : Prop := w.calls = [] ∧ ∀ e ∈ w.refs, e.2.use ≠ .compacting

theorem Sound.quiescent (h : Sound config w) (hquiet : Quiescent w) :
    w.registry.bytes = config.openBytes * w.openCount := by
  have hreserved : w.reservedCount = 0 := by
    unfold Manager.reservedCount
    rw [hquiet.1]
    rfl
  have hcompacting : w.compactingCount = 0 := by
    unfold Manager.compactingCount
    have hzero : Assoc.total Manager.compacts w.refs = Assoc.total (fun _ _ => 0) w.refs := by
      refine Assoc.total_congr fun e he => ?_
      simp [one, hquiet.2 e he]
    rw [hzero]
    simp [Assoc.total]
  have hbalanced : w.registry.bytes = _ := h.balanced
  rw [hbalanced, hreserved, hcompacting]
  simp

/-! ## Who is refused -/

theorem evict_length (h : Sound config w) {may : String → Bool} {own : Option ℕ} {rank : String → ℕ}
    (hvictim : w.victim may own rank = some id) :
    Sound config (w.evict config id) ∧ (w.evict config id).registry.slots.length < w.registry.slots.length := by
  obtain ⟨serial, hmem, hmay⟩ := Evict.mem_of_least hvictim
  have hget := Assoc.get_of_mem_nodup h.shape.slots hmem
  have hidle := ((Bool.and_eq_true _ _).mp hmay).2
  obtain ⟨slot, store, hslot, -⟩ := evictable_eq hidle
  refine ⟨h.evict hget hidle, ?_⟩
  rw [evict_eq hget hslot]
  exact List.length_filter_lt_length_iff_exists.mpr ⟨(id, serial), hmem, by simp⟩

/-- A database is refused room only where no other registered slot has an idle one. -/
theorem reserveOpen_refused (h : Sound config w) {rank : String → ℕ}
    (hrefused : w.reserveOpen config id rank = (false, w')) :
    config.cap < w'.registry.bytes + config.openBytes ∧
      ∀ e ∈ w'.registry.slots, e.1 ≠ id → w'.evictable none e.2 = false := by
  unfold Manager.reserveOpen at hrefused
  set full : Manager → Bool := fun w => decide (config.cap < w.registry.bytes + config.openBytes) with hfull
  set victim := Manager.victim (fun key => decide (key ≠ id)) none rank
  have hstuck : (Evict.loop full victim (Manager.evict config) w.registry.slots.length w).1 = false → _ :=
    Evict.loop_stuck (I := Sound config) (fun w => w.registry.slots.length)
      (fun _ _ hs hvictim => evict_length hs hvictim) w.registry.slots.length h le_rfl
  revert hrefused hstuck
  generalize Evict.loop full victim (Manager.evict config) w.registry.slots.length w = looped
  obtain ⟨room, w''⟩ := looped
  intro hrefused hstuck
  cases room with
  | true => cases hrefused
  | false =>
    cases hrefused
    obtain ⟨hno, hnone⟩ := hstuck rfl
    refine ⟨by simpa [hfull] using hno, ?_⟩
    intro e he hne
    have hnot := Evict.least_eq_none.mp hnone e he
    simpa [hne] using hnot

/-- **Open databases are accounted exactly.** In every run in which the index answers and no slot leaves the
registry under a call that waits for it, the registry's bytes are those of the open databases of registered slots,
of those about to be opened and of the compactions that run; of the open databases alone where nothing is in
progress. And a database is refused room only where the others' databases are all in use. -/
theorem databases_accounted (config : Config) (events : List Manager.Event)
    (hcareful : Run.Meets (Manager.step config) Careful Manager.init events) :
    let w := Run.exec (Manager.step config) Manager.init events
    Balanced config w ∧ (Quiescent w → w.registry.bytes = config.openBytes * w.openCount) ∧
      ∀ id rank w', w.reserveOpen config id rank = (false, w') →
        config.cap < w'.registry.bytes + config.openBytes ∧
          ∀ e ∈ w'.registry.slots, e.1 ≠ id → w'.evictable none e.2 = false := by
  intro w
  have hsound : Sound config w :=
    Run.exec_inv (fun _ event h hcareful => step_sound h event hcareful) (sound_init config) hcareful
  exact ⟨hsound.balanced, hsound.quiescent, fun id rank w' hrefused => reserveOpen_refused hsound hrefused⟩

/-! ## Charges that are lost -/

def libraryA : String := "aaaaaaaaaaaaaaaa"

def libraryB : String := "bbbbbbbbbbbbbbbb"

/-- A request whose index record cannot be read, and one that waits while another's token is refused: each leaves
a charge with nothing open for it. -/
theorem failed_index_stays_charged :
    let failed := Run.exec (Manager.step (charges (64 * 1024 * 1024))) Manager.init
      [.enter 0 libraryA 1, .lock 0, .reserve 0 fun _ => 0, .opened 0 7 false 0, .unlock 0, .release 0]
    let orphaned := Run.exec (Manager.step (charges (64 * 1024 * 1024))) Manager.init
      [.enter 0 libraryA 1, .enter 1 libraryA 2, .lock 0, .reserve 0 fun _ => 0, .openFailed 0,
        .unlock 0, .release 0, .lock 1, .reserve 1 fun _ => 0, .opened 1 7 true 0, .unlock 1, .release 1,
        .dropLease 0 fun _ => 0, .gone 0]
    (failed.calls = [] ∧ failed.refs = [] ∧ failed.openCount = 0 ∧ failed.registry.bytes = OPEN_DATABASE_BYTES) ∧
      (orphaned.calls = [] ∧ orphaned.refs = [] ∧ orphaned.openCount = 0 ∧
        orphaned.registry.bytes = OPEN_DATABASE_BYTES) := by
  decide +kernel

/-- One library is opened and compacted; another's token is refused, and then it is opened too; the first is
removed, and the second's database stays open. -/
theorem databases_accounted_sample :
    (Run.exec (Manager.step (charges (64 * 1024 * 1024))) Manager.init
      [.enter 0 libraryA 1, .lock 0, .reserve 0 fun _ => 0, .opened 0 7 true 0, .unlock 0, .release 0, .compact 0,
        .enter 1 libraryB 2, .lock 1, .reserve 1 fun _ => 0, .openFailed 1, .unlock 1, .release 1, .compacted 0,
        .enter 2 libraryB 3, .lock 2, .reserve 2 fun _ => 0, .opened 2 8 true 1, .unlock 2, .release 2,
        .dropLease 0 fun _ => 0, .gone 0, .remove libraryA]).registry.bytes = OPEN_DATABASE_BYTES * 1 :=
  (databases_accounted (charges (64 * 1024 * 1024)) _ (by
    refine ⟨trivial, trivial, trivial, rfl, trivial, trivial, trivial, trivial, trivial, trivial, ?_,
      trivial, trivial,
      trivial, trivial, trivial, trivial, rfl, trivial, trivial, trivial, trivial, ?_, trivial⟩ <;>
      simp only [Careful] <;> decide +kernel)).2.1
    (by unfold Quiescent; decide +kernel)

end DenEdge.Databases
