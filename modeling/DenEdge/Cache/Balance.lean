import DenEdge.Cache.Libraries

/-!
# The balance of the cache

What each registered slot is charged is the reservation of the request that has its lock, or else the library in
it and the one that request has taken out (`Libraries.charge`). The invariant (`Sound`) says that the registry
counts exactly that, and that a request's slot is registered.

* `Sound.entered`: a request enters, or changes its slot or what it has in hand.
* `Evicted`, `Sound.evicted`: slots nobody holds leave the registry.
-/

namespace DenEdge.Cache

/-! ## What a slot is charged -/

def Holder.charge (holder : Holder) (slot : Slot) : ℕ :=
  match holder.reservation with
  | some r => r.current
  | none => holder.memory slot

variable {t : ℕ} {holder : Holder} {slot : Slot}
variable {bytes loaded made : ℕ}

namespace Libraries

/-- The outstanding reservation of the request that has the slot's lock, or else what is in memory for it. -/
def charge (w : Libraries) (slot : Slot) : ℕ :=
  match slot.lockedBy.bind (Assoc.get w.holders) with
  | none => slot.library.getD 0
  | some holder => holder.charge slot

/-- The sum of something over what the registered slots are charged. -/
def sum (f : ℕ → ℕ) (w : Libraries) : ℕ := Assoc.total (fun _ slot => f (w.charge slot)) w.registry.slots

/-- What a charge adds to the number of charged slots. -/
def one (charge : ℕ) : ℕ := if charge = 0 then 0 else 1

/-- A request and its slot, new or changed, with the counters after that. -/
def entered (w : Libraries) (t : ℕ) (holder : Holder) (slot : Slot) (bytes loaded made : ℕ) : Libraries :=
  ⟨⟨Assoc.set w.registry.slots holder.id slot, bytes, loaded⟩, Assoc.set w.holders t holder, made⟩

abbrev Has (w : Libraries) (t : ℕ) (holder : Holder) : Prop := Assoc.get w.holders t = some holder

abbrev Lists (w : Libraries) (id : String) (slot : Slot) : Prop := Assoc.get w.registry.slots id = some slot

/-- What is charged for the slot of a library, nothing where it has none. -/
def chargeAt (w : Libraries) (id : String) : ℕ := ((Assoc.get w.registry.slots id).map w.charge).getD 0

variable {w : Libraries}

theorem charge_entered {other : Slot}
    (h : other.lockedBy ≠ some t) :
    (w.entered t holder slot bytes loaded made).charge other = w.charge other := by
  unfold charge
  cases hlocked : other.lockedBy with
  | none => rfl
  | some t' =>
    have hne : t' ≠ t := fun heq => h (by rw [hlocked, heq])
    simp only [Option.bind_some, entered, Assoc.get_set, if_neg hne]

theorem sum_entered (f : ℕ → ℕ) (hzero : f 0 = 0) (hnodup : (w.registry.slots.map Prod.fst).Nodup)
    (hother : ∀ {id slot}, w.Lists id slot → slot.lockedBy = some t → id = holder.id) :
    sum f (w.entered t holder slot bytes loaded made) + f (w.chargeAt holder.id) =
      sum f w + f ((w.entered t holder slot bytes loaded made).charge slot) := by
  set w' := w.entered t holder slot bytes loaded made
  have hset := Assoc.total_set (fun _ slot => f (w'.charge slot)) hnodup holder.id slot
  have hcongr : ∀ e ∈ w.registry.slots, e.1 ≠ holder.id → f (w'.charge e.2) = f (w.charge e.2) := by
    intro e he hne
    rw [charge_entered fun hlocked => hne (hother (Assoc.get_of_mem_nodup hnodup he) hlocked)]
  have hupdate := Assoc.total_update (fun _ slot => f (w.charge slot)) (fun _ slot => f (w'.charge slot)) hnodup
    holder.id hcongr
  have hat : Assoc.weightAt (fun _ slot => f (w.charge slot)) w.registry.slots holder.id =
      f (w.chargeAt holder.id) := by
    unfold Assoc.weightAt chargeAt
    cases Assoc.get w.registry.slots holder.id with
    | none => exact hzero.symm
    | some => rfl
  have hslots : w'.registry.slots = Assoc.set w.registry.slots holder.id slot := rfl
  unfold sum
  rw [hslots]
  omega

end Libraries

/-! ## The invariant -/

structure Small (limits : Limits) (bytes : ℕ) : Prop where
  library : bytes ≤ limits.libraryBytes
  cache : bytes ≤ limits.cacheBytes

theorem Small.zero (limits : Limits) : Small limits 0 := ⟨Nat.zero_le _, Nat.zero_le _⟩

/-- What a request that has the lock has in hand. -/
structure InHand (limits : Limits) (holder : Holder) (slot : Slot) : Prop where
  taken : ∀ bytes, holder.taken = some bytes → slot.library = none ∧ 0 < bytes ∧ Small limits bytes
  reserved : ∀ r, holder.reservation = some r → r.old = holder.memory slot ∧ Small limits r.current

/-- Nothing is in the hands of a request without the lock. -/
def Idle (holder : Holder) : Prop := holder.reservation = none ∧ holder.taken = none

structure Sound (limits : Limits) (w : Libraries) : Prop where
  nodup : (w.registry.slots.map Prod.fst).Nodup
  held : ∀ {t holder}, Assoc.get w.holders t = some holder →
    ∃ slot, Assoc.get w.registry.slots holder.id = some slot ∧ slot.serial = holder.serial
  locked : ∀ {id slot t}, Assoc.get w.registry.slots id = some slot → slot.lockedBy = some t →
    ∃ holder, Assoc.get w.holders t = some holder ∧ holder.id = id
  working : ∀ {t holder slot}, Assoc.get w.holders t = some holder →
    Assoc.get w.registry.slots holder.id = some slot →
    if slot.lockedBy = some t then InHand limits holder slot else Idle holder
  library : ∀ {id slot bytes}, Assoc.get w.registry.slots id = some slot → slot.library = some bytes →
    0 < bytes ∧ Small limits bytes
  bytes : w.registry.bytes = Libraries.sum id w
  loaded : w.registry.loaded = Libraries.sum Libraries.one w
  within : w.registry.bytes ≤ limits.cacheBytes
  few : w.registry.loaded ≤ MAX_CACHED_LIBRARIES

variable {limits : Limits} {w : Libraries}

theorem sound_init (limits : Limits) : Sound limits Libraries.init where
  nodup := List.nodup_nil
  held h := by cases h
  locked h := by cases h
  working h := by cases h
  library h := by cases h
  bytes := rfl
  loaded := rfl
  within := Nat.zero_le _
  few := Nat.zero_le _

/-- What a request enters, new or changed, for its slot. -/
structure Entry (limits : Limits) (w : Libraries) (t : ℕ) (holder : Holder) (slot : Slot) : Prop where
  serial : holder.serial = slot.serial
  own : ∀ before, Assoc.get w.holders t = some before → before.id = holder.id
  keeps : ∀ before, Assoc.get w.registry.slots holder.id = some before → before.serial = slot.serial
  /-- Another request's lock is not touched. -/
  lock : ∀ t', t' ≠ t → (slot.lockedBy = some t' ↔
    ∃ before, Assoc.get w.registry.slots holder.id = some before ∧ before.lockedBy = some t')
  others : ∀ before t', Assoc.get w.registry.slots holder.id = some before → before.lockedBy = some t' → t' ≠ t →
    slot.library = before.library
  working : if slot.lockedBy = some t then InHand limits holder slot else Idle holder
  library : ∀ bytes, slot.library = some bytes → 0 < bytes ∧ Small limits bytes

theorem Sound.entered (h : Sound limits w) (hentry : Entry limits w t holder slot)
    (hbytes : bytes + w.chargeAt holder.id =
      w.registry.bytes + (w.entered t holder slot bytes loaded made).charge slot)
    (hloaded : loaded + Libraries.one (w.chargeAt holder.id) =
      w.registry.loaded + Libraries.one ((w.entered t holder slot bytes loaded made).charge slot))
    (hwithin : bytes ≤ limits.cacheBytes) (hfew : loaded ≤ MAX_CACHED_LIBRARIES) :
    Sound limits (w.entered t holder slot bytes loaded made) := by
  have hother : ∀ {id slot'}, w.Lists id slot' → slot'.lockedBy = some t → id = holder.id := by
    intro id slot' hslot hlocked
    obtain ⟨before, hbefore, rfl⟩ := h.locked hslot hlocked
    exact hentry.own before hbefore
  set w' := w.entered t holder slot bytes loaded made
  have hsum : ∀ f : ℕ → ℕ, f 0 = 0 →
      Libraries.sum f w' + f (w.chargeAt holder.id) = Libraries.sum f w + f (w'.charge slot) :=
    fun f hzero => Libraries.sum_entered f hzero h.nodup hother
  constructor
  case nodup => exact Assoc.keys_set _ _ _ h.nodup
  case held =>
    intro t' holder' hholder
    simp only [w', Libraries.entered, Assoc.get_set] at hholder ⊢
    split_ifs at hholder with ht
    · cases hholder
      exact ⟨slot, by rw [if_pos rfl], hentry.serial.symm⟩
    · obtain ⟨before, hbefore, hserial⟩ := h.held hholder
      by_cases hid : holder'.id = holder.id
      · rw [if_pos hid]
        rw [hid] at hbefore
        exact ⟨slot, rfl, by rw [← hentry.keeps before hbefore, hserial]⟩
      · rw [if_neg hid]
        exact ⟨before, hbefore, hserial⟩
  case locked =>
    intro id slot' t' hslot hlocked
    simp only [w', Libraries.entered, Assoc.get_set] at hslot ⊢
    by_cases ht : t' = t
    · rw [if_pos ht]
      refine ⟨holder, rfl, ?_⟩
      split_ifs at hslot with hid
      · exact hid.symm
      · exact (hother hslot (ht ▸ hlocked)).symm
    · rw [if_neg ht]
      split_ifs at hslot with hid
      · cases hslot
        obtain ⟨before, hbefore, hlocked'⟩ := (hentry.lock t' ht).mp hlocked
        rw [hid]
        exact h.locked hbefore hlocked'
      · exact h.locked hslot hlocked
  case working =>
    intro t' holder' slot' hholder hslot
    simp only [w', Libraries.entered, Assoc.get_set] at hholder hslot
    split_ifs at hholder with ht
    · cases hholder
      rw [if_pos rfl] at hslot
      cases hslot
      rw [ht]
      exact hentry.working
    · split_ifs at hslot with hid
      · cases hslot
        -- another request on the same slot
        obtain ⟨before, hbefore, -⟩ := h.held hholder
        have hworking := h.working hholder hbefore
        rw [hid] at hbefore
        by_cases hlocked : before.lockedBy = some t'
        · have hlibrary := hentry.others before t' hbefore hlocked ht
          rw [if_pos ((hentry.lock t' ht).mpr ⟨before, hbefore, hlocked⟩)]
          rw [if_pos hlocked] at hworking
          refine ⟨fun bytes htaken => ?_, fun r hr => ?_⟩
          · rw [hlibrary]
            exact hworking.taken bytes htaken
          · have hreserved := hworking.reserved r hr
            unfold Holder.memory at hreserved ⊢
            rw [hlibrary]
            exact hreserved
        · have hnot : slot.lockedBy ≠ some t' := by
            intro hslot
            obtain ⟨before', hbefore', hlocked'⟩ := (hentry.lock t' ht).mp hslot
            rw [hbefore] at hbefore'
            cases hbefore'
            exact hlocked hlocked'
          rw [if_neg hnot]
          rw [if_neg hlocked] at hworking
          exact hworking
      · exact h.working hholder hslot
  case library =>
    intro id slot' bytes' hslot hlibrary
    simp only [w', Libraries.entered, Assoc.get_set] at hslot
    split_ifs at hslot
    · cases hslot
      exact hentry.library bytes' hlibrary
    · exact h.library hslot hlibrary
  case bytes =>
    have := hsum id rfl
    have hbefore := h.bytes
    simp only [id] at this
    change bytes = _
    omega
  case loaded =>
    have := hsum Libraries.one rfl
    have hbefore := h.loaded
    change loaded = _
    omega
  case within => exact hwithin
  case few => exact hfew

/-! ## Eviction -/

/-- Slots that may go have left the registry, one after another. -/
inductive Evicted (may : String → Slot → Bool) (reg : Registry) : Registry → Prop
  | refl : Evicted may reg reg
  | evict {reg' : Registry} {id : String} (h : Evicted may reg reg')
    (hmay : ∀ slot, Assoc.get reg'.slots id = some slot → may id slot = true) : Evicted may reg (reg'.evict id)

theorem evict_slots (reg : Registry) (id : String) : (reg.evict id).slots = Assoc.erase reg.slots id := by
  unfold Registry.evict
  split <;> rfl

namespace Evicted

variable {may : String → Slot → Bool} {reg reg' : Registry}

section

variable (h : Evicted may reg reg')
include h

theorem nodup (hreg : (reg.slots.map Prod.fst).Nodup) :
    (reg'.slots.map Prod.fst).Nodup := by
  induction h with
  | refl => exact hreg
  | evict h hmay ih =>
    rw [evict_slots]
    exact Assoc.keys_erase _ _ ih

theorem get {id : String} (hget : Assoc.get reg'.slots id = some slot) :
    Assoc.get reg.slots id = some slot := by
  induction h with
  | refl => exact hget
  | evict h hmay ih =>
    rw [evict_slots, Assoc.get_erase] at hget
    split_ifs at hget
    exact ih hget

/-- What may not go stays. -/
theorem keeps {id : String} (hget : Assoc.get reg.slots id = some slot)
    (hmay : may id slot = false) : Assoc.get reg'.slots id = some slot := by
  induction h with
  | refl => exact hget
  | evict h hgone ih =>
    rw [evict_slots, Assoc.get_erase, if_neg]
    · exact ih
    · rintro rfl
      rw [hgone slot ih] at hmay
      cases hmay

theorem mono {may' : String → Slot → Bool}
    (hmay : ∀ id slot, may id slot = true → may' id slot = true) : Evicted may' reg reg' := by
  induction h with
  | refl => exact .refl
  | evict h hgone ih => exact .evict ih fun slot hget => hmay _ _ (hgone slot hget)

theorem trans {reg'' : Registry} (h' : Evicted may reg' reg'') : Evicted may reg reg'' := by
  induction h' with
  | refl => exact h
  | evict h' hgone ih => exact .evict ih hgone

end

end Evicted

/-- Making room evicts only what may go. -/
theorem loop_evicted (full : Registry → Bool) (may : String → Slot → Bool) (rank : String → ℕ) (n : ℕ)
    {reg : Registry} (hreg : (reg.slots.map Prod.fst).Nodup) :
    Evicted may reg (Evict.loop full (Registry.victim may rank) Registry.evict n reg).2 := by
  refine Evict.loop_inv (fun reg' id h hvictim => ?_) n .refl
  obtain ⟨slot, hmem, hmay⟩ := Evict.mem_of_least hvictim
  refine .evict h fun slot' hget => ?_
  have hsame := Assoc.get_of_mem_nodup (h.nodup hreg) hmem
  rw [hget] at hsame
  rw [Option.some.inj hsame]
  exact hmay

/-- Slots nobody holds. -/
def free (w : Libraries) (id : String) (slot : Slot) : Bool := !w.busy id slot

theorem tidied_evicted (h : Sound limits w) (id : String) (now : ℕ) (rank : String → ℕ) :
    Evicted (free w) w.registry (w.tidied id now rank) := by
  unfold Libraries.tidied
  set stale := (w.registry.slots.filter fun e => w.removable now e.1 e.2).map Prod.fst
  have hfold : Evicted (free w) w.registry (stale.foldl Registry.evict w.registry) := by
    refine List.foldlRecOn (motive := Evicted (free w) w.registry) stale _ .refl fun reg hreg id' hid' => ?_
    refine .evict hreg fun slot hget => ?_
    obtain ⟨e, he, rfl⟩ := List.mem_map.mp hid'
    obtain ⟨hmem, hremovable⟩ := List.mem_filter.mp he
    have hsame := Assoc.get_of_mem_nodup h.nodup hmem
    rw [hreg.get hget] at hsame
    rw [Option.some.inj hsame]
    exact ((Bool.and_eq_true _ _).mp hremovable).1
  exact hfold.trans (loop_evicted _ _ rank _ (hfold.nodup h.nodup))

theorem busy_of_get (h : w.Has t holder)
    (hserial : slot.serial = holder.serial) : w.busy holder.id slot = true :=
  List.any_eq_true.mpr ⟨(t, holder), Assoc.mem_of_get h, by simp [hserial]⟩

/-- The slot that a request holds is not one of those that go. -/
theorem Sound.not_free (h : Sound limits w)
    (hholder : w.Has t holder) (hslot : w.Lists holder.id slot) :
    free w holder.id slot = false := by
  obtain ⟨slot', hslot', hserial⟩ := h.held hholder
  rw [hslot] at hslot'
  cases hslot'
  simp [free, busy_of_get hholder hserial]

/-- A slot nobody holds is unlocked, so it is charged its library. -/
theorem Sound.charge_free (h : Sound limits w) {id : String}
    (hslot : w.Lists id slot) (hfree : free w id slot = true) :
    w.charge slot = slot.library.getD 0 := by
  cases hlocked : slot.lockedBy with
  | none => simp [Libraries.charge, hlocked]
  | some t =>
    obtain ⟨holder, hholder, rfl⟩ := h.locked hslot hlocked
    rw [h.not_free hholder hslot] at hfree
    cases hfree

theorem Sound.evict (h : Sound limits w) {key : String}
    (hfree : ∀ slot, w.Lists key slot → free w key slot = true) :
    Sound limits { w with registry := w.registry.evict key } := by
  set w' : Libraries := { w with registry := w.registry.evict key }
  have hslots : w'.registry.slots = Assoc.erase w.registry.slots key := evict_slots w.registry key
  have hevicted : Evicted (free w) w.registry w'.registry := .evict .refl hfree
  have hsum : ∀ f : ℕ → ℕ, f 0 = 0 → Libraries.sum f w' +
      f (((Assoc.get w.registry.slots key).bind Slot.library).getD 0) = Libraries.sum f w := by
    intro f hzero
    have herase := Assoc.total_erase (fun _ slot => f (w.charge slot)) h.nodup key
    have hat : Assoc.weightAt (fun _ slot => f (w.charge slot)) w.registry.slots key =
        f (((Assoc.get w.registry.slots key).bind Slot.library).getD 0) := by
      unfold Assoc.weightAt
      cases hslot : Assoc.get w.registry.slots key with
      | none => exact hzero.symm
      | some slot => exact congrArg f (h.charge_free hslot (hfree slot hslot))
    rw [hat] at herase
    unfold Libraries.sum
    rw [hslots]
    exact herase
  have hbytes := hsum id rfl
  have hloaded := hsum Libraries.one rfl
  have hbefore := h.bytes
  have hcount := h.loaded
  have hcounters : w'.registry.bytes = Libraries.sum id w' ∧
      w'.registry.loaded = Libraries.sum Libraries.one w' := by
    change (w.registry.evict key).bytes = _ ∧ (w.registry.evict key).loaded = _
    unfold Registry.evict
    cases hlibrary : (Assoc.get w.registry.slots key).bind Slot.library with
    | none =>
      simp only [hlibrary, Option.getD_none, id, Libraries.one, if_pos] at hbytes hloaded ⊢
      omega
    | some bytes =>
      obtain ⟨slot, hslot, hbytes'⟩ := Option.bind_eq_some_iff.mp hlibrary
      -- a library that is held has a charge, so it was counted
      have hpos := (h.library hslot hbytes').1
      have hone : Libraries.one bytes = 1 := by simp [Libraries.one]; omega
      simp only [hlibrary, Option.getD_some, id, hone] at hbytes hloaded ⊢
      omega
  have hwithin := h.within
  have hfew := h.few
  constructor
  case nodup => exact hevicted.nodup h.nodup
  case held =>
    intro t holder hholder
    obtain ⟨slot, hslot, hserial⟩ := h.held hholder
    exact ⟨slot, hevicted.keeps hslot (h.not_free hholder hslot), hserial⟩
  case locked => exact fun hslot hlocked => h.locked (hevicted.get hslot) hlocked
  case working => exact fun hholder hslot => h.working hholder (hevicted.get hslot)
  case library => exact fun hslot hlibrary => h.library (hevicted.get hslot) hlibrary
  case bytes => exact hcounters.1
  case loaded => exact hcounters.2
  case within => omega
  case few => omega

theorem Sound.evicted (h : Sound limits w) {reg : Registry} (hevicted : Evicted (free w) w.registry reg) :
    Sound limits { w with registry := reg } := by
  induction hevicted with
  | refl => exact h
  | evict _ hfree ih => exact ih.evict hfree

end DenEdge.Cache
