import DenEdge.Hold.Missed

/-!
# Places are conserved

Two paths take a place away: the drop of its request's handle, and the cancelling of its owner. Either undoes what
taking the place did, and whichever comes second finds nothing to undo; so the counts stay those of the places
there are, and a key's list is that of the places waiting on it (`places_conserved`).
-/

namespace DenEdge.Hold

/-! ## Handles -/

/-- What a request keeps of the place it was given. -/
structure Handle where
  owner : String
  keys : List String

/-- The places, and the handles of requests that have not been dropped, by their place. -/
structure Places where
  holds : Holds
  handles : List (ℕ × Handle)

namespace Places

def init (maxTotal maxPerOwner : ℕ) : Places := ⟨.new maxTotal maxPerOwner, []⟩

inductive Event where
  | hold (owner : String) (keys : { keys : List String // keys.Nodup })
  | wake (key : String)
  | cancelOwner (owner : String)
  | drop (id : ℕ)

def step (s : Places) : Event → Places
  | .hold owner keys =>
    match s.holds.hold owner keys with
    | none => s
    | some (id, holds) => ⟨holds, Assoc.set s.handles id ⟨owner, keys⟩⟩
  | .wake key => { s with holds := s.holds.wake key }
  | .cancelOwner owner => { s with holds := s.holds.cancelOwner owner }
  | .drop id =>
    match Assoc.get s.handles id with
    | none => s
    | some handle =>
      let holds := s.holds.drop id handle.owner handle.keys
      -- the permit is the handle's, also where the place was cancelled before
      ⟨{ holds with permits := holds.permits.filter (· ≠ id) }, Assoc.erase s.handles id⟩

/-- The place is active, and its request waits on the key. -/
def Names (s : Places) (id : ℕ) (key : String) : Prop :=
  (Assoc.get s.holds.active id).isSome ∧ ∃ handle, Assoc.get s.handles id = some handle ∧ key ∈ handle.keys

end Places

/-! ## Counting -/

/-- The active places of an owner. -/
def count (active : List (ℕ × String)) (owner : String) : ℕ := (active.filter (·.2 = owner)).length

theorem count_cons (e : ℕ × String) (active : List (ℕ × String)) (owner : String) :
    count (e :: active) owner = count active owner + if e.2 = owner then 1 else 0 := by
  by_cases he : e.2 = owner <;> simp [count, he]

theorem count_eq_total (active : List (ℕ × String)) (owner : String) :
    count active owner = Assoc.total (fun _ o => if o = owner then 1 else 0) active := by
  induction active with
  | nil => rfl
  | cons _ _ ih => rw [count_cons, Assoc.total_cons, ih, Nat.add_comm]

/-- Owners that are each counted right are counted right together. -/
theorem total_of_counts {owners : List (String × ℕ)} {active : List (ℕ × String)}
    (hnodup : (owners.map Prod.fst).Nodup)
    (hcounts : ∀ o, (Assoc.get owners o).getD 0 = count active o) :
    Assoc.total (fun _ n => n) owners = active.length := by
  induction active generalizing owners with
  | nil =>
    have hzero : ∀ e ∈ owners, e.2 = 0 := by
      intro e he
      have := hcounts e.1
      rwa [Assoc.get_of_mem_nodup hnodup he] at this
    have hsum : Assoc.total (fun _ n => n) owners = Assoc.total (fun _ _ => 0) owners := Assoc.total_congr hzero
    rw [hsum]
    simp [Assoc.total]
  | cons e active ih =>
    -- one place less of its owner's
    have hset := Assoc.total_set (fun _ n => n) hnodup e.2 (count active e.2)
    have hweight : Assoc.weightAt (fun _ n => n) owners e.2 = count active e.2 + 1 := by
      have := hcounts e.2
      rw [count_cons] at this
      simpa [Assoc.weightAt] using this
    have hrest : Assoc.total (fun _ n => n) (Assoc.set owners e.2 (count active e.2)) = active.length := by
      refine ih (Assoc.keys_set _ _ _ hnodup) fun o => ?_
      rw [Assoc.get_set]
      split_ifs with ho
      · rw [ho]
        rfl
      · rw [hcounts, count_cons, if_neg (Ne.symm ho), Nat.add_zero]
    rw [List.length_cons]
    omega

/-- The counts are those of the active places, and within the caps. -/
structure Counted (h : Holds) : Prop where
  active : (h.active.map Prod.fst).Nodup
  owners : (h.owners.map Prod.fst).Nodup
  total : h.total = h.active.length
  counts : ∀ owner, h.ownedBy owner = count h.active owner
  within : h.total ≤ h.maxTotal ∧ ∀ owner, h.ownedBy owner ≤ h.maxPerOwner

/-! ## The invariant -/

structure Conserved (s : Places) : Prop where
  counted : Counted s.holds
  handles : ∀ id handle, Assoc.get s.handles id = some handle → id ≤ s.holds.next
  active : ∀ id owner, Assoc.get s.holds.active id = some owner →
    ∃ handle, Assoc.get s.handles id = some handle ∧ handle.owner = owner
  keys : (s.holds.waiting.map Prod.fst).Nodup
  lists : ∀ key ids, Assoc.get s.holds.waiting key = some ids → ids ≠ [] ∧ ids.Nodup
  waiting : ∀ key id, id ∈ s.holds.waitingOn key ↔ s.Names id key

/-- What is left where some places are taken away, and the others kept. -/
structure Removes (h h' : Holds) (keep : ℕ → Bool) : Prop where
  active : h'.active = h.active.filter fun e => keep e.1
  next : h'.next = h.next
  caps : h'.maxTotal = h.maxTotal ∧ h'.maxPerOwner = h.maxPerOwner
  keys : (h'.waiting.map Prod.fst).Nodup
  waiting : ∀ key, Assoc.get h'.waiting key = Holds.kept keep (Assoc.get h.waiting key)

theorem Counted.remove {h h' : Holds} {keep : ℕ → Bool} (hc : Counted h) (hr : Removes h h' keep)
    (howners : (h'.owners.map Prod.fst).Nodup) (htotal : h'.total = h'.active.length)
    (hcounts : ∀ owner, h'.ownedBy owner = count h'.active owner) : Counted h' := by
  refine ⟨?_, howners, htotal, hcounts, ?_, fun owner => ?_⟩
  · rw [hr.active]
    exact Assoc.keys_filter _ hc.active
  · rw [htotal, hr.active, hr.caps.1]
    exact (List.length_filter_le _ _).trans (hc.total ▸ hc.within.1)
  · rw [hcounts, hr.active, hr.caps.2]
    refine le_trans ?_ (hc.counts owner ▸ hc.within.2 owner)
    exact (List.filter_sublist.filter _).length_le

namespace Conserved

variable {s : Places}

theorem init (maxTotal maxPerOwner : ℕ) : Conserved (Places.init maxTotal maxPerOwner) := by
  refine ⟨⟨List.nodup_nil, List.nodup_nil, rfl, fun _ => rfl, Nat.zero_le _, fun _ => Nat.zero_le _⟩, ?_, ?_,
    List.nodup_nil, ?_, ?_⟩ <;> simp [Places.init, Holds.new, Holds.waitingOn, Places.Names]

section

variable (h : Conserved s)
include h

theorem hold (owner : String) (keys : { keys : List String // keys.Nodup }) :
    Conserved (s.step (.hold owner keys)) := by
  obtain ⟨keys, hkeys⟩ := keys
  simp only [Places.step, Holds.hold]
  split_ifs with hstop hfull
  · exact h
  · exact h
  rw [not_or] at hfull
  have hnew : Assoc.get s.holds.active (s.holds.next + 1) = none := by
    by_contra hsome
    obtain ⟨o, ho⟩ := Option.ne_none_iff_exists'.mp hsome
    obtain ⟨handle, hget, -⟩ := h.active _ o ho
    have := h.handles _ _ hget
    omega
  have happend : Assoc.set s.holds.active (s.holds.next + 1) owner =
      s.holds.active ++ [(s.holds.next + 1, owner)] := by
    rw [Assoc.set, if_neg]
    intro hany
    obtain ⟨e, he, hid⟩ := List.any_eq_true.mp hany
    exact Assoc.get_eq_none.mp hnew e he (by simpa using hid)
  have howned : ∀ o, (Assoc.get (Assoc.set s.holds.owners owner (s.holds.ownedBy owner + 1)) o).getD 0 =
      s.holds.ownedBy o + if owner = o then 1 else 0 := by
    intro o
    rw [Assoc.get_set]
    by_cases ho : o = owner
    · simp [ho]
    · simp [ho, Ne.symm ho, Holds.ownedBy]
  constructor
  case counted =>
    obtain ⟨active, owners, total, counts, within⟩ := h.counted
    refine ⟨Assoc.keys_set _ _ _ active, Assoc.keys_set _ _ _ owners, ?_, fun o => ?_, ?_, fun o => ?_⟩
    · simp [happend, total]
    · rw [Holds.ownedBy, howned, counts, happend]
      by_cases ho : owner = o <;> simp [count, ho]
    · change s.holds.total + 1 ≤ s.holds.maxTotal
      omega
    · rw [Holds.ownedBy, howned]
      have := within.2 o
      split_ifs with ho
      · subst ho
        exact not_le.mp hfull.2
      · exact this
  case handles =>
    intro x handle hget
    rw [Assoc.get_set] at hget
    split_ifs at hget with hx
    · exact hx.le
    · exact Nat.le_succ_of_le (h.handles x handle hget)
  case active =>
    intro x o hget
    rw [Assoc.get_set] at hget ⊢
    split_ifs at hget ⊢ with hx
    · exact ⟨_, rfl, Option.some.inj hget⟩
    · exact h.active x o hget
  case keys =>
    refine List.foldlRecOn (motive := fun w : List (String × List ℕ) => (w.map Prod.fst).Nodup) keys _ h.keys ?_
    exact fun w hw key _ => Assoc.keys_set _ _ _ hw
  case lists =>
    intro key ids hget
    rw [Holds.get_foldl_push _ _ _ _ hkeys] at hget
    split_ifs at hget with hkey
    · cases hget
      refine ⟨by simp, List.nodup_append.mpr ⟨?_, by simp, ?_⟩⟩
      · cases hbefore : Assoc.get s.holds.waiting key with
        | none => exact List.nodup_nil
        | some l => exact (h.lists key l hbefore).2
      · -- the place is new, so it was under no key
        intro x hx y hy
        rw [List.mem_singleton.mp hy]
        rintro rfl
        obtain ⟨hactive, -⟩ := (h.waiting key _).mp hx
        rw [hnew] at hactive
        cases hactive
    · exact h.lists key ids hget
  case waiting =>
    intro key x
    have hbefore := h.waiting key x
    unfold Holds.waitingOn Places.Names at hbefore ⊢
    rw [Holds.get_foldl_push _ _ _ _ hkeys, Assoc.get_set, Assoc.get_set]
    by_cases hx : x = s.holds.next + 1
    · by_cases hkey : key ∈ keys <;> simp_all
    · by_cases hkey : key ∈ keys <;> simp [hkey, hx, hbefore]

/-- Places are taken away, and handles of no other places. -/
theorem remove {holds : Holds} {handles : List (ℕ × Handle)} {keep : ℕ → Bool}
    (hr : Removes s.holds holds keep) (hc : Counted holds)
    (hhandles : ∀ id handle, Assoc.get handles id = some handle → Assoc.get s.handles id = some handle)
    (hkeep : ∀ id, keep id = true → Assoc.get handles id = Assoc.get s.handles id) :
    Conserved ⟨holds, handles⟩ := by
  have hactive : ∀ id, Assoc.get holds.active id = (Assoc.get s.holds.active id).filter fun _ => keep id := by
    intro id
    rw [hr.active, Assoc.get_filter h.counted.active]
  constructor
  case counted => exact hc
  case handles => exact fun id handle hget => (h.handles id handle (hhandles id handle hget)).trans hr.next.ge
  case active =>
    intro id o hget
    rw [hactive, Option.filter_eq_some_iff] at hget
    rw [hkeep id hget.2]
    exact h.active id o hget.1
  case keys => exact hr.keys
  case lists =>
    intro key ids hget
    rw [hr.waiting] at hget
    cases hbefore : Assoc.get s.holds.waiting key with
    | none =>
      rw [hbefore] at hget
      cases hget
    | some l =>
      rw [hbefore, Holds.kept_some] at hget
      split_ifs at hget with hempty
      cases hget
      exact ⟨hempty, (h.lists key l hbefore).2.filter _⟩
  case waiting =>
    intro key id
    rw [Holds.waitingOn, hr.waiting, Holds.mem_kept]
    change keep id = true ∧ id ∈ s.holds.waitingOn key ↔ _
    rw [h.waiting]
    unfold Places.Names
    rw [hactive]
    by_cases hid : keep id = true
    · rw [hkeep id hid]
      simp [hid]
    · simp [hid]

theorem cancelOwner (owner : String) : Conserved (s.step (.cancelOwner owner)) := by
  by_cases hnone : (s.holds.active.filter (·.2 = owner)).map Prod.fst = []
  · simp only [Places.step, Holds.cancelOwner, if_pos hnone]
    exact h
  -- a place is one of the owner's exactly if its entry names the owner
  have hids : ∀ e ∈ s.holds.active, e.1 ∈ (s.holds.active.filter (·.2 = owner)).map Prod.fst ↔ e.2 = owner := by
    intro e he
    constructor
    · intro hmem
      obtain ⟨e', he', hid⟩ := List.mem_map.mp hmem
      obtain ⟨hmem', howner⟩ := List.mem_filter.mp he'
      rw [← List.inj_on_of_nodup_map h.counted.active hmem' he hid]
      simpa using howner
    · intro howner
      exact List.mem_map_of_mem (List.mem_filter.mpr ⟨he, by simpa using howner⟩)
  have hsame :
      (s.holds.active.filter fun e => decide (e.1 ∉ (s.holds.active.filter (·.2 = owner)).map Prod.fst)) =
      s.holds.active.filter (·.2 ≠ owner) := by
    refine List.filter_congr fun e he => ?_
    simp only [hids e he]
  have hkeys : ((s.holds.waiting.map fun e => (e.1, e.2.filter fun id =>
      decide (id ∉ (s.holds.active.filter (·.2 = owner)).map Prod.fst))).map Prod.fst).Nodup := by
    rw [List.map_map]
    exact h.keys
  have hr : Removes s.holds (s.holds.cancelOwner owner)
      (fun id => id ∉ (s.holds.active.filter (·.2 = owner)).map Prod.fst) := by
    simp only [Holds.cancelOwner, if_neg hnone]
    refine ⟨rfl, rfl, ⟨rfl, rfl⟩, Assoc.keys_filter _ hkeys, fun key => ?_⟩
    rw [Assoc.get_filter hkeys, Assoc.get_map s.holds.waiting fun _ ids => ids.filter _]
    rfl
  refine h.remove hr (h.counted.remove hr ?_ ?_ fun o => ?_) (fun _ _ hget => hget) fun _ _ => rfl
  all_goals simp only [Holds.cancelOwner, if_neg hnone, hsame, Holds.ownedBy]
  · exact Assoc.keys_erase _ _ h.counted.owners
  · have hsplit := List.length_eq_length_filter_add (l := s.holds.active) fun e => decide (e.2 = owner)
    have htotal := h.counted.total
    simp only [List.length_map, ne_eq, decide_not]
    omega
  · unfold count
    rw [Assoc.get_erase, List.filter_filter]
    split_ifs with ho
    · refine (List.length_eq_zero_iff.mpr (List.filter_eq_nil_iff.mpr fun e _ => ?_)).symm
      simp [ho]
    · refine (h.counted.counts o).trans (congrArg List.length (List.filter_congr fun e _ => ?_))
      by_cases he : e.2 = o <;> simp [he, ho]

/-- Dropping a handle takes its place away, where it is still there. -/
theorem drop_removes {id : ℕ} {handle : Handle} (hhandle : Assoc.get s.handles id = some handle) :
    Removes s.holds (s.holds.drop id handle.owner handle.keys) (· ≠ id) := by
  -- a list without the place is kept as it is
  have hkept : ∀ key, ¬ s.Names id key → Assoc.get s.holds.waiting key =
      Holds.kept (· ≠ id) (Assoc.get s.holds.waiting key) := by
    intro key hnot
    cases hget : Assoc.get s.holds.waiting key with
    | none => rfl
    | some ids =>
      have hall : ids.filter (· ≠ id) = ids := by
        refine List.filter_eq_self.mpr fun x hx => decide_eq_true ?_
        rintro rfl
        exact hnot ((h.waiting key x).mp (by rw [Holds.waitingOn, hget]; exact hx))
      rw [Holds.kept_some, hall, if_neg (h.lists key ids hget).1]
  unfold Holds.drop
  cases hactive : Assoc.get s.holds.active id with
  | none =>
    refine ⟨?_, rfl, ⟨rfl, rfl⟩, h.keys, fun key => hkept key fun hnames => ?_⟩
    · exact (List.filter_eq_self.mpr fun e he => decide_eq_true (Assoc.get_eq_none.mp hactive e he)).symm
    · rw [Places.Names, hactive] at hnames
      cases hnames.1
  | some =>
    refine ⟨rfl, rfl, ⟨rfl, rfl⟩, ?_, fun key => ?_⟩
    · refine List.foldlRecOn (motive := fun w : List (String × List ℕ) => (w.map Prod.fst).Nodup)
        handle.keys _ h.keys ?_
      intro w hw key _
      unfold Holds.remove
      split
      · exact hw
      · split_ifs
        · exact Assoc.keys_erase _ _ hw
        · exact Assoc.keys_set _ _ _ hw
    · rw [Holds.get_foldl_remove]
      split_ifs with hkey
      · rfl
      · refine hkept key ?_
        rintro ⟨-, handle', hhandle', hkey'⟩
        rw [hhandle] at hhandle'
        cases hhandle'
        exact hkey hkey'

theorem drop (id : ℕ) : Conserved (s.step (.drop id)) := by
  simp only [Places.step]
  cases hhandle : Assoc.get s.handles id with
  | none => exact h
  | some handle =>
    have hr := h.drop_removes hhandle
    have hcounted : Counted (s.holds.drop id handle.owner handle.keys) := by
      cases hactive : Assoc.get s.holds.active id with
      | none =>
        have hsame : s.holds.drop id handle.owner handle.keys = s.holds := by simp only [Holds.drop, hactive]
        rw [hsame]
        exact h.counted
      | some owner =>
        obtain ⟨handle', hget', howner⟩ := h.active id owner hactive
        rw [hhandle] at hget'
        cases hget'
        subst howner
        have hcount : ∀ o, count (Assoc.erase s.holds.active id) o + (if handle.owner = o then 1 else 0) =
            s.holds.ownedBy o := by
          intro o
          have herase := Assoc.total_erase (fun _ o' => if o' = o then 1 else 0) h.counted.active id
          rwa [Assoc.weightAt, hactive, ← count_eq_total, ← count_eq_total, ← h.counted.counts] at herase
        have hlength := Assoc.total_erase (fun _ _ => 1) h.counted.active id
        simp only [Assoc.weightAt, hactive, Assoc.total, List.map_const', List.sum_replicate,
          smul_eq_mul, mul_one, Option.map_some, Option.getD_some] at hlength
        have htotal := h.counted.total
        have hown := hcount handle.owner
        rw [if_pos rfl, Holds.ownedBy] at hown
        refine h.counted.remove hr ?_ ?_ fun o => ?_
        all_goals simp only [Holds.drop, Holds.ownedBy, hactive]
        · split
          · exact h.counted.owners
          · split_ifs
            · exact Assoc.keys_erase _ _ h.counted.owners
            · exact Assoc.keys_set _ _ _ h.counted.owners
        · omega
        · have ho := hcount o
          rw [Holds.ownedBy] at ho
          cases hn : Assoc.get s.holds.owners handle.owner with
          | none =>
            rw [hn] at hown
            cases hown
          | some n =>
            by_cases heq : handle.owner = o
            · subst heq
              rw [hn, Option.getD_some, if_pos rfl] at ho
              dsimp only
              split_ifs <;> simp [Assoc.get_erase, Assoc.get_set] <;> omega
            · rw [if_neg heq] at ho
              dsimp only
              split_ifs <;> simp [Assoc.get_erase, Assoc.get_set, Ne.symm heq] <;> omega
    refine h.remove { hr with } { hcounted with } ?_ ?_
    · intro x handle' hget
      exact Assoc.get_of_erase hget
    · intro x hx
      rw [Assoc.get_erase, if_neg (of_decide_eq_true hx)]

theorem step (e : Places.Event) : Conserved (s.step e) := by
  cases e with
  | hold owner keys => exact h.hold owner keys
  | wake key => exact { h with counted := { h.counted with } }
  | cancelOwner owner => exact h.cancelOwner owner
  | drop id => exact h.drop id

end

end Conserved

theorem caps_step (s : Places) (e : Places.Event) :
    (s.step e).holds.maxTotal = s.holds.maxTotal ∧ (s.step e).holds.maxPerOwner = s.holds.maxPerOwner := by
  cases e with
  | hold =>
    simp only [Places.step, Holds.hold]
    split_ifs <;> exact ⟨rfl, rfl⟩
  | wake key => exact ⟨rfl, rfl⟩
  | cancelOwner =>
    simp only [Places.step, Holds.cancelOwner]
    split_ifs <;> exact ⟨rfl, rfl⟩
  | drop id =>
    simp only [Places.step, Holds.drop]
    split
    · exact ⟨rfl, rfl⟩
    · split <;> exact ⟨rfl, rfl⟩

/-- **Held-request places are conserved.** In every run of holds, wakes, cancelled owners and dropped handles: the
total is the number of active places and the sum of the owners' counts, an owner's count is that of its active
places, a key's list is that of the active places that named it, each once, and no key's list is empty; neither
cap is exceeded; every active place is its handle's; and a wake leaves a permit with exactly the places that wait
on its key. -/
theorem places_conserved (maxTotal maxPerOwner : ℕ) (events : List Places.Event) :
    let s := Run.exec Places.step (Places.init maxTotal maxPerOwner) events
    (s.holds.total = s.holds.active.length ∧ s.holds.total = (s.holds.owners.map Prod.snd).sum) ∧
      (∀ owner, s.holds.ownedBy owner = (s.holds.active.filter (·.2 = owner)).length) ∧
      (∀ key, (∀ id, id ∈ s.holds.waitingOn key ↔ s.Names id key) ∧ (s.holds.waitingOn key).Nodup ∧
        Assoc.get s.holds.waiting key ≠ some []) ∧
      (s.holds.total ≤ maxTotal ∧ ∀ owner, s.holds.ownedBy owner ≤ maxPerOwner) ∧
      (∀ id owner, Assoc.get s.holds.active id = some owner →
        ∃ handle, Assoc.get s.handles id = some handle ∧ handle.owner = owner) ∧
      ∀ key id, id ∈ (s.step (.wake key)).holds.permits ↔ id ∈ s.holds.permits ∨ s.Names id key := by
  intro s
  have h : Conserved s :=
    Run.exec_inv_all (I := Conserved) (fun s e h => h.step e) events (.init maxTotal maxPerOwner)
  have hcaps : s.holds.maxTotal = maxTotal ∧ s.holds.maxPerOwner = maxPerOwner := by
    refine Run.exec_inv_all (I := fun s : Places => s.holds.maxTotal = maxTotal ∧
      s.holds.maxPerOwner = maxPerOwner) (fun s e h => ?_) events ⟨rfl, rfl⟩
    rw [(caps_step s e).1, (caps_step s e).2]
    exact h
  refine ⟨⟨h.counted.total, ?_⟩, h.counted.counts, fun key => ⟨h.waiting key, ?_, ?_⟩, ?_, h.active, ?_⟩
  · rw [h.counted.total]
    exact (total_of_counts h.counted.owners h.counted.counts).symm
  · cases hget : Assoc.get s.holds.waiting key with
    | none => simp [Holds.waitingOn, hget]
    | some ids =>
      rw [Holds.waitingOn, hget]
      exact (h.lists key ids hget).2
  · exact fun hempty => (h.lists key [] hempty).1 rfl
  · rw [← hcaps.1, ← hcaps.2]
    exact h.counted.within
  · intro key id
    rw [← h.waiting]
    exact List.mem_append

end DenEdge.Hold
