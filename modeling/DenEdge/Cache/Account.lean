import DenEdge.Cache.Balance

/-!
# The cache's account

In every run in which no request loses a library it has taken out, and no reservation that shrank is dropped
uncommitted, the registry counts what the slots are charged, within the cap; nobody's slot is evicted; and a
rollback succeeds (`cache_accounted`).

A library taken out is in no slot and under no reservation while it stays counted, for as long as its holder runs
and for ever if the holder is dropped (`taken_stays_charged`).
-/

namespace DenEdge.Cache

variable {limits : Limits} {w : Libraries}

/-! ## What stays registered -/

/-- Slots that someone holds stay registered. -/
def Stays (w w' : Libraries) : Prop :=
  ∀ id slot, Assoc.get w.registry.slots id = some slot → w.busy id slot = true →
    ∃ slot', Assoc.get w'.registry.slots id = some slot' ∧ slot'.serial = slot.serial

theorem Stays.refl (w : Libraries) : Stays w w := fun _ slot hslot _ => ⟨slot, hslot, rfl⟩

variable {reg : Registry} {w' : Libraries} {r : Reservation}

theorem stays_evicted (h : Evicted (free w) w.registry reg) (hw' : w'.registry.slots = reg.slots) :
    Stays w w' := by
  intro id slot hslot hbusy
  rw [hw']
  exact ⟨slot, h.keeps hslot (by simp [free, hbusy]), rfl⟩

variable {slot : Slot} {holder : Holder} {t : ℕ}

theorem stays_entered (h : Evicted (free w) w.registry reg) {id : String}
    (hw' : w'.registry.slots = Assoc.set reg.slots id slot)
    (hserial : ∀ before, Assoc.get reg.slots id = some before → slot.serial = before.serial) : Stays w w' := by
  intro key before hbefore hbusy
  have hkept := h.keeps hbefore (by simp [free, hbusy])
  rw [hw', Assoc.get_set]
  split_ifs with heq
  · exact ⟨slot, rfl, hserial before (heq ▸ hkept)⟩
  · exact ⟨before, hkept, rfl⟩

theorem held_eq (h : w.held t = some (holder, slot)) :
    w.Has t holder ∧ w.Lists holder.id slot ∧
      slot.serial = holder.serial := by
  unfold Libraries.held at h
  split at h
  · cases h
  rename_i holder' hholder
  split at h
  · cases h
  rename_i slot' hslot
  split_ifs at h with hserial
  cases h
  exact ⟨hholder, hslot, hserial⟩

theorem stays_put {holder' : Holder} {slot' : Slot} (hheld : w.held t = some (holder, slot))
    (hid : holder'.id = holder.id) (hserial : slot'.serial = slot.serial) : Stays w (w.put t holder' slot') := by
  obtain ⟨-, hslot, -⟩ := held_eq hheld
  refine stays_entered .refl rfl fun before hbefore => ?_
  rw [hid, hslot] at hbefore
  cases hbefore
  exact hserial

/-- What a call leaves: the slots that someone holds, and the account where its caller is careful. -/
structure Keeps (limits : Limits) (w w' : Libraries) (careful : Prop) : Prop where
  sound : careful → Sound limits w'
  stays : Stays w w'

section

variable (h : Sound limits w)
include h

theorem Keeps.same {careful : Prop} : Keeps limits w w careful := ⟨fun _ => h, .refl w⟩

/-! ## The calls -/

/-- What a granted change of a slot's charge leaves. -/
def Registry.changed (reg : Registry) (old needed : ℕ) : Registry :=
  { reg with bytes := reg.bytes - old + needed, loaded := reg.loaded + adding old needed - leaving old needed }

/-- There is room for a change of a slot's charge. -/
structure Room (limits : Limits) (reg : Registry) (old needed : ℕ) : Prop where
  bytes : reg.bytes - old + needed ≤ limits.cacheBytes
  loaded : reg.loaded + adding old needed ≤ MAX_CACHED_LIBRARIES

/-- What a change of a slot's charge has done: evicted slots nobody holds, and changed the counters if it is
granted. -/
theorem adjust_spec (rank : String → ℕ) (id : String) (serial old needed : ℕ) :
    ∃ reg, Evicted (free w) w.registry reg ∧
      ((∃ refusal, w.registry.adjust limits w.busy rank id serial old needed = (.error refusal, reg)) ∨
        (Small limits needed ∧ Room limits reg old needed ∧
          w.registry.adjust limits w.busy rank id serial old needed = (.ok (), reg.changed old needed))) := by
  unfold Registry.adjust
  by_cases hfull : limits.libraryBytes < needed ∨ limits.cacheBytes < needed
  · rw [if_pos hfull]
    exact ⟨_, .refl, .inl ⟨_, rfl⟩⟩
  by_cases hleft : (Assoc.get w.registry.slots id).map Slot.serial ≠ some serial
  · rw [if_neg hfull, if_pos hleft]
    exact ⟨_, .refl, .inl ⟨_, rfl⟩⟩
  by_cases hunder : w.registry.bytes < old
  · rw [if_neg hfull, if_neg hleft, if_pos hunder]
    exact ⟨_, .refl, .inl ⟨_, rfl⟩⟩
  rw [if_neg hfull, if_neg hleft, if_neg hunder]
  have hsmall : Small limits needed := ⟨by omega, by omega⟩
  simp only
  set full : Registry → Bool := fun reg =>
    limits.cacheBytes < reg.bytes - old + needed ||
      MAX_CACHED_LIBRARIES < reg.loaded + adding old needed with hfullDef
  set may : String → Slot → Bool := fun key slot => decide (key ≠ id) && !w.busy key slot
  have hmay : ∀ key slot, may key slot = true → free w key slot = true :=
    fun key slot h => ((Bool.and_eq_true _ _).mp h).2
  have hevicted := (loop_evicted full may rank w.registry.slots.length h.nodup).mono hmay
  have hroom :
      (Evict.loop full (Registry.victim may rank) Registry.evict w.registry.slots.length w.registry).1 = true →
      full (Evict.loop full (Registry.victim may rank) Registry.evict w.registry.slots.length w.registry).2 =
        false :=
    Evict.loop_room _
  revert hevicted hroom
  generalize Evict.loop full (Registry.victim may rank) Registry.evict w.registry.slots.length w.registry = looped
  obtain ⟨room, reg⟩ := looped
  intro hevicted hroom
  refine ⟨reg, hevicted, ?_⟩
  cases room with
  | false => exact .inl ⟨.busy, rfl⟩
  | true =>
    have hnot := hroom rfl
    simp only [hfullDef, Bool.or_eq_false_iff, decide_eq_false_iff_not, not_lt] at hnot
    exact .inr ⟨hsmall, ⟨hnot.1, hnot.2⟩, rfl⟩

theorem Sound.charged (id : String) : w.chargeAt id ≤ w.registry.bytes := by
  rw [h.bytes]
  exact Assoc.weightAt_le_total (fun _ slot => w.charge slot) h.nodup id

variable {needed old : ℕ}

theorem adjust_stays (rank : String → ℕ) {id : String} {serial : ℕ}
    (hw' : w'.registry.slots = (w.registry.adjust limits w.busy rank id serial old needed).2.slots) :
    Stays w w' := by
  obtain ⟨reg, hevicted, ⟨refusal, hrefused⟩ | ⟨-, -, hgranted⟩⟩ := adjust_spec h rank id serial old needed
  · rw [hrefused] at hw'
    exact stays_evicted hevicted hw'
  · rw [hgranted] at hw'
    exact stays_evicted hevicted hw'

/-- A charge that does not grow is always granted, and nothing is evicted for it. -/
theorem adjust_shrink (hholder : w.Has t holder) (rank : String → ℕ)
    (hold : w.chargeAt holder.id = old) (hle : needed ≤ old) (hsmall : Small limits needed) :
    w.registry.adjust limits w.busy rank holder.id holder.serial old needed =
      (.ok (), w.registry.changed old needed) := by
  obtain ⟨slot, hslot, hserial⟩ := h.held hholder
  have hcharged : old ≤ w.registry.bytes := hold ▸ h.charged holder.id
  have hwithin := h.within
  have hfew := h.few
  have hlibrary := hsmall.library
  have hadding : adding old needed = 0 := by
    unfold adding
    split_ifs <;> omega
  unfold Registry.adjust
  rw [if_neg (by omega), if_neg (by simp [hslot, hserial]), if_neg (by omega)]
  simp only
  rw [Evict.loop_of_room]
  · rfl
  · simp only [hadding, Bool.or_eq_false_iff, decide_eq_false_iff_not, not_lt]
    omega

theorem room_shrink (hle : needed ≤ old) (hcharged : old ≤ w.registry.bytes) :
    Room limits w.registry old needed := by
  have hwithin := h.within
  have hfew := h.few
  refine ⟨by omega, ?_⟩
  unfold adding
  split_ifs <;> omega

omit h in
/-- The charge of a locked slot is what its lock holder has in hand. -/
theorem chargeAt_locked (hholder : w.Has t holder)
    (hslot : w.Lists holder.id slot) (hlocked : slot.lockedBy = some t) :
    w.chargeAt holder.id = holder.charge slot := by
  simp [Libraries.chargeAt, Libraries.charge, hslot, hlocked, hholder]

/-- The slot of a request is charged otherwise, and its reservation is changed to match. -/
theorem Sound.changed (hholder : w.Has t holder)
    (hslot : w.Lists holder.id slot) (hlocked : slot.lockedBy = some t)
    (hold : holder.charge slot = old) (hroom : Room limits w.registry old needed)
    (reservation : Option Reservation)
    (hneeded : Holder.charge { holder with reservation := reservation } slot = needed)
    (hinHand : InHand limits { holder with reservation := reservation } slot) :
    Sound limits { w with
      registry := w.registry.changed old needed
      holders := Assoc.set w.holders t { holder with reservation := reservation } } := by
  set holder' : Holder := { holder with reservation := reservation } with hholder'
  obtain ⟨slot', hslot', hserial⟩ := h.held hholder
  rw [hslot] at hslot'
  cases hslot'
  have hat : w.chargeAt holder'.id = old := (chargeAt_locked hholder hslot hlocked).trans hold
  have hcharged : old ≤ w.registry.bytes := hat ▸ h.charged holder.id
  have hcounted : Libraries.one old ≤ w.registry.loaded := by
    have hle := Assoc.weightAt_le_total (fun _ slot => Libraries.one (w.charge slot)) h.nodup holder.id
    rw [h.loaded, ← hat]
    refine le_trans (le_of_eq ?_) hle
    simp [Libraries.chargeAt, Assoc.weightAt, hslot, hholder']
  have hentry : Entry limits w t holder' slot := by
    refine ⟨hserial.symm, ?_, ?_, ?_, ?_, ?_, ?_⟩
    · intro before hbefore
      rw [hholder] at hbefore
      cases hbefore
      rfl
    · intro before hbefore
      rw [hslot] at hbefore
      cases hbefore
      rfl
    · simp [hholder', hslot]
    · intro before t' hbefore _ _
      rw [hslot] at hbefore
      cases hbefore
      rfl
    · rw [if_pos hlocked]
      exact hinHand
    · exact fun bytes hbytes => h.library hslot hbytes
  have hsame : ({ w with
      registry := w.registry.changed old needed
      holders := Assoc.set w.holders t holder' } : Libraries) =
      w.entered t holder' slot (w.registry.changed old needed).bytes
        (w.registry.changed old needed).loaded w.made := by
    unfold Libraries.entered Registry.changed
    rw [Assoc.set_get h.nodup hslot]
  have hcharge :
      (w.entered t holder' slot (w.registry.changed old needed).bytes (w.registry.changed old needed).loaded
      w.made).charge slot = needed := by
    simp only [Libraries.charge, Libraries.entered, hlocked, Option.bind_some, Assoc.get_set, if_pos]
    exact hneeded
  have hloadedRoom := hroom.loaded
  rw [hsame]
  refine h.entered hentry ?_ ?_ hroom.bytes ?_
  · rw [hcharge]
    simp only [Registry.changed]
    omega
  · rw [hcharge]
    simp only [Registry.changed, adding, leaving, Libraries.one] at hcounted ⊢
    split_ifs at hcounted ⊢ <;> omega
  · simp only [Registry.changed]
    omega

/-- A request changes its slot, or what it has in hand, and the slot's charge stays. -/
theorem Sound.put {holder' : Holder} {slot' : Slot} (hheld : w.held t = some (holder, slot))
    (hid : holder'.id = holder.id) (hserial : holder'.serial = holder.serial)
    (hslotSerial : slot'.serial = slot.serial) (hlock : slot'.lockedBy = slot.lockedBy ∨
      (slot.lockedBy = none ∨ slot.lockedBy = some t) ∧ (slot'.lockedBy = none ∨ slot'.lockedBy = some t))
    (hlibrary : slot.lockedBy = some t ∨ slot'.library = slot.library)
    (hworking : if slot'.lockedBy = some t then InHand limits holder' slot' else Idle holder')
    (hsize : ∀ bytes, slot'.library = some bytes → 0 < bytes ∧ Small limits bytes)
    (hcharge : (w.put t holder' slot').charge slot' = w.charge slot) : Sound limits (w.put t holder' slot') := by
  obtain ⟨hholder, hslot, hsame⟩ := held_eq hheld
  rw [← hid] at hslot
  have hentry : Entry limits w t holder' slot' := by
    refine ⟨?_, ?_, ?_, ?_, ?_, hworking, hsize⟩
    · rw [hserial, hslotSerial, hsame]
    · intro before hbefore
      rw [hholder] at hbefore
      cases hbefore
      exact hid.symm
    · intro before hbefore
      rw [hslot] at hbefore
      cases hbefore
      exact hslotSerial.symm
    · intro t' ht'
      rcases hlock with heq | ⟨hbefore, hafter⟩
      · simp [hslot, heq]
      · -- neither before nor after does another request have the lock
        have hnot : ∀ {lock : Option ℕ}, lock = none ∨ lock = some t → lock ≠ some t' := by
          rintro lock (rfl | rfl) heq
          · cases heq
          · exact ht' (Option.some.inj heq).symm
        simp [hslot, hnot hafter, hnot hbefore]
    · intro before t' hbefore hlocked ht'
      rw [hslot] at hbefore
      cases hbefore
      rcases hlibrary with hown | heq
      · rw [hown] at hlocked
        exact absurd (Option.some.inj hlocked).symm ht'
      · exact heq
  have hat : w.chargeAt holder'.id = w.charge slot := by simp [Libraries.chargeAt, hslot]
  refine h.entered hentry ?_ ?_ h.within h.few
  · rw [hat]
    exact congrArg (w.registry.bytes + ·) hcharge.symm
  · rw [hat]
    exact congrArg (w.registry.loaded + Libraries.one ·) hcharge.symm

end

theorem put_charge_locked (hlocked : slot.lockedBy = some t) :
    (w.put t holder slot).charge slot = holder.charge slot := by
  simp [Libraries.charge, Libraries.put, hlocked, Assoc.get_set]

theorem charge_locked (hholder : w.Has t holder) (hlocked : slot.lockedBy = some t) :
    w.charge slot = holder.charge slot := by
  simp [Libraries.charge, hlocked, hholder]

theorem charge_unlocked (hlocked : slot.lockedBy = none) : w.charge slot = slot.library.getD 0 := by
  simp [Libraries.charge, hlocked]

theorem Idle.charge (h : Idle holder) (slot : Slot) : holder.charge slot = slot.library.getD 0 := by
  simp [Holder.charge, Holder.memory, h.1, h.2]

theorem Idle.inHand (h : Idle holder) (slot : Slot) : InHand limits holder slot :=
  ⟨by simp [h.2], by simp [h.1]⟩

theorem lock_keeps (h : Sound limits w) (t : ℕ) : Keeps limits w (w.lock t) True := by
  unfold Libraries.lock
  split
  · exact .same h
  rename_i holder slot hheld
  split_ifs with hfree
  · obtain ⟨hholder, hslot, -⟩ := held_eq hheld
    have hidle : Idle holder := by
      have hworking := h.working hholder hslot
      rwa [if_neg (by simp [hfree])] at hworking
    refine ⟨fun _ => ?_, stays_put hheld rfl rfl⟩
    refine h.put hheld rfl rfl rfl (.inr ⟨.inl hfree, .inr rfl⟩) (.inr rfl) ?_ (fun _ hb => h.library hslot hb) ?_
    · rw [if_pos rfl]
      exact hidle.inHand _
    · rw [put_charge_locked rfl, charge_unlocked hfree, hidle.charge]
  · exact .same h

theorem publish_keeps (h : Sound limits w) (t : ℕ) (v3 : Bool) : Keeps limits w (w.publish t v3) True := by
  unfold Libraries.publish
  split
  · exact .same h
  rename_i holder slot hheld
  obtain ⟨hholder, hslot, -⟩ := held_eq hheld
  have hworking := h.working hholder hslot
  have hsame : InHand limits holder slot → InHand limits holder { slot with v3 := v3 } :=
    fun hin => ⟨hin.1, hin.2⟩
  refine ⟨fun _ => ?_, stays_put hheld rfl rfl⟩
  refine h.put hheld rfl rfl rfl (.inl rfl) (.inr rfl) ?_ (fun _ hb => h.library hslot hb) ?_
  · split_ifs with hlocked
    · rw [if_pos hlocked] at hworking
      exact hsame hworking
    · rwa [if_neg hlocked] at hworking
  · -- the charge reads the lock and the library only
    by_cases hlocked : slot.lockedBy = some t
    · exact Eq.trans (put_charge_locked hlocked) (charge_locked hholder hlocked).symm
    · exact (Libraries.charge_entered hlocked).trans rfl

/-- What a careful request with the lock may do without changing the charge of its slot: it keeps the lock, or
gives it up with nothing in hand. -/
structure Handled (limits : Limits) (t : ℕ) (careful : Prop) (holder : Holder) (slot : Slot) (holder' : Holder)
    (slot' : Slot) : Prop where
  id : holder'.id = holder.id
  serial : holder'.serial = holder.serial
  slotSerial : slot'.serial = slot.serial
  charge : careful →
    slot'.lockedBy = some t ∧ InHand limits holder' slot' ∧ holder'.charge slot' = holder.charge slot ∨
    slot'.lockedBy = none ∧ Idle holder' ∧ slot'.library.getD 0 = holder.charge slot
  library : ∀ bytes, slot'.library = some bytes → 0 < bytes ∧ Small limits bytes

section

variable (h : Sound limits w)
include h

theorem locked_keeps (t : ℕ) {careful : Prop} {f : Holder → Slot → Option (Holder × Slot)}
    (hf : ∀ holder slot holder' slot', f holder slot = some (holder', slot') → slot.lockedBy = some t →
      w.Has t holder → InHand limits holder slot →
      (∀ bytes, slot.library = some bytes → 0 < bytes ∧ Small limits bytes) →
      Handled limits t careful holder slot holder' slot') : Keeps limits w (w.locked t f) careful := by
  unfold Libraries.locked
  split
  · exact .same h
  rename_i holder slot hheld
  split_ifs with hlocked
  swap
  · exact .same h
  split
  · exact .same h
  rename_i holder' slot' hsome
  obtain ⟨hholder, hslot, -⟩ := held_eq hheld
  have hinHand := h.working hholder hslot
  rw [if_pos hlocked] at hinHand
  obtain ⟨hid, hserial, hslotSerial, hcases, hsize⟩ :=
    hf holder slot holder' slot' hsome hlocked hholder hinHand fun _ hb => h.library hslot hb
  refine ⟨fun hcareful => ?_, stays_put hheld hid hslotSerial⟩
  rcases hcases hcareful with ⟨hkept, hin, hcharge⟩ | ⟨hgone, hidle, hcharge⟩
  · refine h.put hheld hid hserial hslotSerial (.inr ⟨.inr hlocked, .inr hkept⟩) (.inl hlocked) ?_ hsize ?_
    · rw [if_pos hkept]
      exact hin
    · rw [put_charge_locked hkept, charge_locked hholder hlocked, hcharge]
  · refine h.put hheld hid hserial hslotSerial (.inr ⟨.inr hlocked, .inl hgone⟩) (.inl hlocked) ?_ hsize ?_
    · rw [if_neg (by simp [hgone])]
      exact hidle
    · rw [charge_unlocked hgone, charge_locked hholder hlocked, hcharge]

theorem commit_keeps (t : ℕ) : Keeps limits w (w.commit t) True := by
  refine locked_keeps h t ?_
  intro holder slot holder' slot' hf hlocked _ hin _
  obtain ⟨r, hr, heq⟩ := Option.map_eq_some_iff.mp hf
  cases heq
  have hsmall := (hin.reserved r hr).2
  refine ⟨rfl, rfl, rfl, fun _ => .inl ⟨hlocked, ⟨by simp, by simp⟩, ?_⟩, ?_⟩
  · -- the library that is put in place is what was reserved
    by_cases hzero : r.current = 0 <;> simp [Holder.charge, Holder.memory, hr, hzero]
  · intro bytes hbytes
    split_ifs at hbytes with hzero
    cases hbytes
    exact ⟨Nat.pos_of_ne_zero hzero, hsmall⟩

theorem take_keeps (t : ℕ) : Keeps limits w (w.take t) True := by
  refine locked_keeps h t ?_
  intro holder slot holder' slot' hf hlocked _ hin hsize
  split_ifs at hf with hnone
  obtain ⟨bytes, hbytes, heq⟩ := Option.map_eq_some_iff.mp hf
  cases heq
  -- nothing was taken out before, for the library was in its slot
  have htaken : holder.taken = none := by
    cases htaken : holder.taken with
    | none => rfl
    | some other =>
      have := (hin.taken other htaken).1
      rw [hbytes] at this
      cases this
  refine ⟨rfl, rfl, rfl, fun _ => .inl ⟨hlocked, ⟨?_, by simp [hnone]⟩, ?_⟩, by simp⟩
  · intro other hother
    cases hother
    exact ⟨rfl, hsize bytes hbytes⟩
  · simp [Holder.charge, Holder.memory, hnone, hbytes, htaken]

theorem putBack_keeps (t : ℕ) : Keeps limits w (w.putBack t) True := by
  refine locked_keeps h t ?_
  intro holder slot holder' slot' hf hlocked _ hin _
  split_ifs at hf with hnone
  obtain ⟨bytes, hbytes, heq⟩ := Option.map_eq_some_iff.mp hf
  cases heq
  obtain ⟨hlibrary, hsize⟩ := hin.taken bytes hbytes
  refine ⟨rfl, rfl, rfl, fun _ => .inl ⟨hlocked, ⟨by simp, by simp [hnone]⟩, ?_⟩, ?_⟩
  · simp [Holder.charge, Holder.memory, hnone, hbytes, hlibrary]
  · intro other hother
    cases hother
    exact hsize

theorem unlock_keeps (t : ℕ) :
    Keeps limits w (w.unlock t) (∀ holder ∈ Assoc.get w.holders t, holder.taken = none) := by
  refine locked_keeps h t ?_
  intro holder slot holder' slot' hf _ hholder _ hsize
  split_ifs at hf with hnone
  cases hf
  refine ⟨rfl, rfl, rfl, fun hcareful => .inr ⟨rfl, ⟨hnone, rfl⟩, ?_⟩, hsize⟩
  simp [Holder.charge, Holder.memory, hnone, hcareful holder hholder]

theorem recharge_keeps (hholder : w.Has t holder)
    (hslot : w.Lists holder.id slot) (hlocked : slot.lockedBy = some t) (rank : String → ℕ)
    (hold : holder.charge slot = old) (hcurrent : r.current = needed) (hrold : r.old = holder.memory slot) :
    Keeps limits w (w.recharge limits t rank old needed (some r) holder) True := by
  have hin := h.working hholder hslot
  rw [if_pos hlocked] at hin
  unfold Libraries.recharge
  obtain ⟨reg, hevicted, ⟨refusal, hrefused⟩ | ⟨hsmall, hroom, hgranted⟩⟩ :=
    adjust_spec h rank holder.id holder.serial old needed
  · rw [hrefused]
    exact ⟨fun _ => h.evicted hevicted, stays_evicted hevicted rfl⟩
  · rw [hgranted]
    refine ⟨fun _ => ?_, stays_evicted hevicted rfl⟩
    have hslot' := hevicted.keeps hslot (h.not_free hholder hslot)
    have hsound := (h.evicted hevicted).changed hholder hslot' hlocked hold hroom (some r) hcurrent
      ⟨hin.taken, fun r' hr' => by cases hr'; exact ⟨hrold, hcurrent ▸ hsmall⟩⟩
    exact hsound

theorem reserve_keeps (t needed : ℕ) (rank : String → ℕ) :
    Keeps limits w (w.reserve limits t needed rank) True := by
  unfold Libraries.reserve
  split
  · exact .same h
  rename_i holder slot hheld
  obtain ⟨hholder, hslot, -⟩ := held_eq hheld
  split_ifs with hlocked
  · refine recharge_keeps h hholder hslot hlocked.1 rank ?_ rfl rfl
    simp [Holder.charge, hlocked.2]
  · exact .same h

/-- Who has a reservation has the lock. -/
theorem Sound.reserved (hholder : w.Has t holder) (hr : holder.reservation = some r) :
    ∃ slot, w.Lists holder.id slot ∧ slot.lockedBy = some t ∧
      InHand limits holder slot := by
  obtain ⟨slot, hslot, -⟩ := h.held hholder
  have hworking := h.working hholder hslot
  split_ifs at hworking with hlocked
  · exact ⟨slot, hslot, hlocked, hworking⟩
  · rw [hworking.1] at hr
    cases hr

theorem resize_keeps (t needed : ℕ) (rank : String → ℕ) :
    Keeps limits w (w.resize limits t needed rank) True := by
  unfold Libraries.resize
  split
  · exact .same h
  rename_i holder hholder
  split
  · exact .same h
  rename_i r hr
  obtain ⟨slot, hslot, hlocked, hin⟩ := h.reserved hholder hr
  exact recharge_keeps h hholder hslot hlocked rank (by simp [Holder.charge, hr]) rfl (hin.reserved r hr).1

end

/-- The library in the slot and the one taken out are not both there, so together they are as small as each. -/
theorem InHand.memory_small (h : InHand limits holder slot)
    (hlibrary : ∀ bytes, slot.library = some bytes → 0 < bytes ∧ Small limits bytes) :
    Small limits (holder.memory slot) := by
  unfold Holder.memory
  cases htaken : holder.taken with
  | some bytes =>
    obtain ⟨hnone, -, hsmall⟩ := h.taken bytes htaken
    simpa [hnone] using hsmall
  | none =>
    cases hbytes : slot.library with
    | none => exact Small.zero limits
    | some bytes => simpa using (hlibrary bytes hbytes).2

section

variable (h : Sound limits w)
include h

/-- **A rollback succeeds**, where the reservation is for no less than the charge it replaced. -/
theorem rollback_granted (hholder : w.Has t holder)
    (hr : holder.reservation = some r) (hle : r.old ≤ r.current) (rank : String → ℕ) :
    w.registry.adjust limits w.busy rank holder.id holder.serial r.current r.old =
      (.ok (), w.registry.changed r.current r.old) := by
  obtain ⟨slot, hslot, hlocked, hin⟩ := h.reserved hholder hr
  refine adjust_shrink h hholder rank ?_ hle ?_
  · rw [chargeAt_locked hholder hslot hlocked]
    simp [Holder.charge, hr]
  · rw [(hin.reserved r hr).1]
    exact hin.memory_small fun _ hb => h.library hslot hb

theorem cancel_keeps (t : ℕ) (rank : String → ℕ) :
    Keeps limits w (w.cancel limits t rank)
      (∀ holder ∈ Assoc.get w.holders t, ∀ r ∈ holder.reservation, r.old ≤ r.current) := by
  unfold Libraries.cancel
  split
  · exact .same h
  rename_i holder hholder
  split
  · exact .same h
  rename_i r hr
  refine ⟨fun hcareful => ?_, adjust_stays h rank rfl⟩
  have hle := hcareful holder hholder r hr
  obtain ⟨slot, hslot, hlocked, hin⟩ := h.reserved hholder hr
  have hcharge : holder.charge slot = r.current := by simp [Holder.charge, hr]
  have hcharged : r.current ≤ w.registry.bytes := by
    rw [← hcharge, ← chargeAt_locked hholder hslot hlocked]
    exact h.charged holder.id
  rw [rollback_granted h hholder hr hle]
  exact h.changed hholder hslot hlocked hcharge (room_shrink h hle hcharged) none
    (hin.reserved r hr).1.symm ⟨hin.taken, by simp⟩

theorem release_keeps (t : ℕ) : Keeps limits w (w.release t) True := by
  unfold Libraries.release
  split
  · exact .same h
  rename_i holder slot hheld
  split_ifs with hlocked
  · exact .same h
  refine ⟨fun _ => ?_, fun _ slot hslot _ => ⟨slot, hslot, rfl⟩⟩
  obtain ⟨hholder, hslot, -⟩ := held_eq hheld
  -- no slot is locked by the request
  have hnone : ∀ {id slot'}, Assoc.get w.registry.slots id = some slot' → slot'.lockedBy ≠ some t := by
    intro id slot' hslot' hlocked'
    obtain ⟨holder', hholder', rfl⟩ := h.locked hslot' hlocked'
    rw [hholder] at hholder'
    cases hholder'
    rw [hslot] at hslot'
    cases hslot'
    exact hlocked hlocked'
  have hcharge : ∀ e ∈ w.registry.slots,
      Libraries.charge { w with holders := Assoc.erase w.holders t } e.2 = w.charge e.2 := by
    intro e he
    have hlocked' := hnone (Assoc.get_of_mem_nodup h.nodup he)
    unfold Libraries.charge
    cases hby : e.2.lockedBy with
    | none => rfl
    | some t' =>
      have hne : t' ≠ t := fun heq => hlocked' (by rw [hby, heq])
      simp only [Option.bind_some, Assoc.get_erase, if_neg hne]
  have hsum : ∀ f, Libraries.sum f { w with holders := Assoc.erase w.holders t } = Libraries.sum f w := by
    intro f
    exact Assoc.total_congr fun e he => congrArg f (hcharge e he)
  exact { h with
    held := fun hholder' => h.held (Assoc.get_of_erase hholder')
    locked := fun {id slot' t'} hslot' hlocked' => by
      have hne : t' ≠ t := fun heq => hnone hslot' (heq ▸ hlocked')
      rw [Assoc.get_erase, if_neg hne]
      exact h.locked hslot' hlocked'
    working := fun hholder' hslot' => h.working (Assoc.get_of_erase hholder') hslot'
    bytes := by rw [hsum]; exact h.bytes
    loaded := by rw [hsum]; exact h.loaded }

theorem slot_keeps (t : ℕ) (id : String) (now : ℕ) (rank : String → ℕ) :
    Keeps limits w (w.slot t id now rank) True := by
  unfold Libraries.slot
  split_ifs with hnew
  · exact .same h
  have hfresh : Assoc.get w.holders t = none := by simpa using hnew
  have hevicted := tidied_evicted h id now rank
  simp only
  generalize w.tidied id now rank = reg at hevicted ⊢
  have htidied := h.evicted hevicted
  have hunlocked : ∀ {id' slot}, Assoc.get reg.slots id' = some slot → slot.lockedBy ≠ some t := by
    intro id' slot hslot hlocked
    obtain ⟨holder, hholder, -⟩ := htidied.locked hslot hlocked
    have : Assoc.get w.holders t = some holder := hholder
    rw [hfresh] at this
    cases this
  set w' : Libraries := { w with registry := reg }
  split
  · rename_i slot hslot
    have hcharge : (w'.entered t ⟨id, slot.serial, none, none⟩ { slot with lastUsed := now } reg.bytes reg.loaded
        w.made).charge { slot with lastUsed := now } = w'.charge slot :=
      (Libraries.charge_entered (hunlocked hslot)).trans rfl
    have hat : w'.chargeAt id = w'.charge slot := by simp [Libraries.chargeAt, w', hslot]
    have hentry : Entry limits w' t ⟨id, slot.serial, none, none⟩ { slot with lastUsed := now } := by
      refine ⟨rfl, ?_, ?_, ?_, ?_, ?_, ?_⟩
      · simp [w', hfresh]
      · simp [w', hslot]
      · simp [w', hslot]
      · intro before t' hbefore _ _
        cases hslot.symm.trans hbefore
        rfl
      · rw [if_neg (hunlocked hslot)]
        exact ⟨rfl, rfl⟩
      · exact fun bytes hbytes => htidied.library hslot hbytes
    refine ⟨fun _ => htidied.entered hentry ?_ ?_ htidied.within htidied.few, stays_entered hevicted rfl ?_⟩
    · rw [hat, hcharge]
    · rw [hat, hcharge]
    · intro before hbefore
      cases hslot.symm.trans hbefore
      rfl
  · rename_i hslot
    have hat : w'.chargeAt id = 0 := by simp [Libraries.chargeAt, w', hslot]
    have hentry : Entry limits w' t ⟨id, w.made, none, none⟩ ⟨w.made, none, none, now, false⟩ := by
      refine ⟨rfl, ?_, ?_, ?_, ?_, ⟨rfl, rfl⟩, ?_⟩
      · simp [w', hfresh]
      · simp [w', hslot]
      · simp [w', hslot]
      · simp [w', hslot]
      · simp
    refine ⟨fun _ => htidied.entered hentry ?_ ?_ htidied.within htidied.few, stays_entered hevicted rfl ?_⟩
    · rw [hat]
      rfl
    · rw [hat]
      rfl
    · simp [hslot]

/-! ## Runs -/

/-- No request gives up the lock with a library in hand, and no reservation for less than the charge it replaced
is dropped uncommitted. -/
def Careful (w : Libraries) : Libraries.Event → Prop
  | .unlock t => ∀ holder ∈ Assoc.get w.holders t, holder.taken = none
  | .cancel t _ => ∀ holder ∈ Assoc.get w.holders t, ∀ r ∈ holder.reservation, r.old ≤ r.current
  | _ => True

theorem step_keeps (event : Libraries.Event) :
    Keeps limits w (w.step limits event) (Careful w event) := by
  cases event with
  | slot t id now rank => exact slot_keeps h t id now rank
  | lock t => exact lock_keeps h t
  | publish t v3 => exact publish_keeps h t v3
  | reserve t needed rank => exact reserve_keeps h t needed rank
  | resize t needed rank => exact resize_keeps h t needed rank
  | commit t => exact commit_keeps h t
  | cancel t rank => exact cancel_keeps h t rank
  | take t => exact take_keeps h t
  | putBack t => exact putBack_keeps h t
  | unlock t => exact unlock_keeps h t
  | release t => exact release_keeps h t

/-- What holds of the registry's account. -/
structure Accounted (limits : Limits) (w : Libraries) : Prop where
  bytes : w.registry.bytes = Libraries.sum id w
  loaded : w.registry.loaded = Libraries.sum Libraries.one w
  within : w.registry.bytes ≤ limits.cacheBytes
  /-- What a request has reserved or taken out is of a registered slot, whose lock the request has. -/
  registered : ∀ t holder, Assoc.get w.holders t = some holder →
    ∃ slot, Assoc.get w.registry.slots holder.id = some slot ∧ slot.serial = holder.serial ∧
      (slot.lockedBy = some t ∨ holder.reservation = none ∧ holder.taken = none)
  kept : ∀ event, Stays w (w.step limits event)
  rollback : ∀ t holder r rank, Assoc.get w.holders t = some holder → holder.reservation = some r →
    r.old ≤ r.current → (w.registry.adjust limits w.busy rank holder.id holder.serial r.current r.old).1 = .ok ()

theorem Sound.accounted : Accounted limits w where
  bytes := h.bytes
  loaded := h.loaded
  within := h.within
  registered t holder hholder := by
    obtain ⟨slot, hslot, hserial⟩ := h.held hholder
    refine ⟨slot, hslot, hserial, ?_⟩
    have hworking := h.working hholder hslot
    split_ifs at hworking with hlocked
    · exact .inl hlocked
    · exact .inr hworking
  kept event := (step_keeps h event).stays
  rollback t holder r rank hholder hr hle := by rw [rollback_granted h hholder hr hle]

end

/-- **The cache's account never drifts.** In every run in which no request gives up its lock with a library in
hand, and no reservation for less than the charge it replaced is dropped, the registry counts what the registered
slots are charged, within the cap; a busy slot is never evicted; and a rollback succeeds. -/
theorem cache_accounted (limits : Limits) (events : List Libraries.Event)
    (hcareful : Run.Meets (Libraries.step limits) Careful Libraries.init events) :
    Accounted limits (Run.exec (Libraries.step limits) Libraries.init events) := by
  refine (Run.exec_inv (I := Sound limits) ?_ (sound_init limits) hcareful).accounted
  exact fun w event h hcareful => (step_keeps h event).sound hcareful

/-! ## A library taken out -/

/-- The outstanding reservations together. -/
def Libraries.outstanding (w : Libraries) : ℕ :=
  Assoc.total (fun _ holder => (holder.reservation.map Reservation.current).getD 0) w.holders

/-- The libraries in registered slots together. -/
def Libraries.cached (w : Libraries) : ℕ := Assoc.total (fun _ slot => slot.library.getD 0) w.registry.slots

def sampleLimits : Limits := ⟨10, 20⟩

/-- A library is loaded: room for the largest is reserved, and shrinks to what it takes. -/
def sampleLoad (t : ℕ) (id : String) (bytes : ℕ) : List Libraries.Event :=
  [.slot t id 0 fun _ => 0, .lock t, .reserve t 10 fun _ => 0, .resize t bytes fun _ => 0, .commit t]

/-- While a library is taken out to be imported, it is counted though no slot and no reservation has it; and it
stays counted where the request is dropped then. A reservation for less than the library that it replaces, dropped
once others have taken the room, cannot be rolled back, and the library is then counted for less than it is. -/
theorem taken_stays_charged :
    let taken := Run.exec (Libraries.step sampleLimits) Libraries.init (sampleLoad 0 "a" 6 ++ [.take 0])
    let dropped := Run.exec (Libraries.step sampleLimits) taken [.unlock 0, .release 0]
    let shrunk := Run.exec (Libraries.step sampleLimits) Libraries.init
      (sampleLoad 0 "a" 10 ++ [.reserve 0 2 fun _ => 0] ++ sampleLoad 1 "b" 5 ++ sampleLoad 2 "c" 8)
    let rolledBack := shrunk.step sampleLimits (.cancel 0 fun _ => 0)
    (taken.registry.bytes = 6 ∧ taken.outstanding = 0 ∧ taken.cached = 0) ∧
      (dropped.registry.bytes = 6 ∧ dropped.outstanding = 0 ∧ dropped.cached = 0 ∧ dropped.holders = []) ∧
      ((Assoc.get shrunk.holders 0).bind Holder.reservation = some ⟨10, 2⟩ ∧
        (shrunk.registry.adjust sampleLimits shrunk.busy (fun _ => 0) "a" 0 2 10).1 = .error .busy ∧
        rolledBack.registry.bytes = 15 ∧ rolledBack.outstanding = 0 ∧ rolledBack.cached = 23) := by
  decide +kernel

/-- One library is loaded, another load is cancelled, and the first is imported. -/
theorem cache_accounted_sample :
    Accounted sampleLimits (Run.exec (Libraries.step sampleLimits) Libraries.init
      (sampleLoad 0 "a" 6 ++ [.slot 1 "b" 1 fun _ => 0, .lock 1, .reserve 1 10 fun _ => 0, .take 0,
        .cancel 1 fun _ => 0, .reserve 0 0 fun _ => 0, .commit 0, .unlock 0, .release 0])) :=
  cache_accounted sampleLimits _ (by
    refine ⟨trivial, trivial, trivial, trivial, trivial, trivial, trivial, trivial, trivial, ?_,
      trivial, trivial, ?_, trivial, trivial⟩ <;> simp only [Careful] <;> decide +kernel)

end DenEdge.Cache
