import DenEdge.Base.Assoc
import DenEdge.Operations.Journal

/-!
# What the journal remembers

Every write of the journal puts one entry into it: at the end, for an operation that it does not name, or in the
place of the one that it names the operation by. So its ids stay distinct, and an entry keeps its place until
newer ones have pushed it out.
-/

namespace DenEdge.Operations

variable {codec : Codec} {s s' : State} {l l' kept current : List Entry} {e c : Entry} {id : String}

abbrev ids (l : List Entry) : List String := l.map (·.operationId)

/-- How many come after an id. -/
def newer (id : String) (is : List String) : ℕ := ((is.dropWhile (· ≠ id)).drop 1).length

/-! ## Places -/

theorem newer_cons_self (is : List String) : newer id (id :: is) = is.length := by
  simp [newer]

theorem newer_cons_ne {other : String} (h : other ≠ id) (is : List String) :
    newer id (other :: is) = newer id is := by
  simp [newer, h]

variable {is : List String} {results : List OperationResult}

/-- Fewer ids in the same order: no more of them come after one that is left. -/
theorem newer_sublist {js : List String} (h : is.Sublist js) (hnodup : js.Nodup) (hid : id ∈ is) :
    newer id is ≤ newer id js := by
  induction h with
  | slnil => cases hid
  | @cons is js j hsub ih =>
    obtain ⟨hnot, hjs⟩ := List.nodup_cons.mp hnodup
    have hne : j ≠ id := fun heq => hnot (heq ▸ hsub.subset hid)
    rw [newer_cons_ne hne]
    exact ih hjs hid
  | @cons_cons is js j hsub ih =>
    obtain ⟨hnot, hjs⟩ := List.nodup_cons.mp hnodup
    by_cases hj : j = id
    · subst hj
      rw [newer_cons_self, newer_cons_self]
      exact hsub.length_le
    · rw [newer_cons_ne hj, newer_cons_ne hj]
      exact ih hjs ((List.mem_cons.mp hid).resolve_left (Ne.symm hj))

/-- What comes after an id is what its first place is followed by. -/
theorem newer_eq {before after : List String} (h : id ∉ before) :
    newer id (before ++ id :: after) = after.length := by
  induction before with
  | nil => exact newer_cons_self after
  | cons j before ih =>
    have hj : j ≠ id := fun heq => h (heq ▸ List.mem_cons_self)
    rw [List.cons_append, newer_cons_ne hj]
    exact ih fun hmem => h (List.mem_cons_of_mem _ hmem)

theorem newer_append (hid : id ∈ is) (other : String) : newer id (is ++ [other]) = newer id is + 1 := by
  obtain ⟨before, after, rfl, hnot⟩ := List.eq_append_cons_of_mem hid
  rw [List.append_assoc, List.cons_append, newer_eq hnot, newer_eq hnot, List.length_append]
  rfl

/-- An id that few come after is among the last. -/
theorem mem_drop_of_newer (hid : id ∈ is) {n : ℕ} (hn : newer id is < n) : id ∈ is.drop (is.length - n) := by
  obtain ⟨before, after, rfl, hnot⟩ := List.eq_append_cons_of_mem hid
  rw [newer_eq hnot] at hn
  have hle : (before ++ id :: after).length - n ≤ before.length := by
    rw [List.length_append, List.length_cons]
    omega
  rw [List.drop_append_of_le_length hle]
  exact List.mem_append_right _ List.mem_cons_self

/-! ## Bounds -/

theorem newest_sublist (l : List Entry) : (newest l).Sublist l := List.drop_sublist _ _

theorem length_newest_le (l : List Entry) : (newest l).length ≤ ENTRY_LIMIT := by
  unfold newest
  rw [List.length_drop]
  omega

theorem newest_of_le (h : l.length ≤ ENTRY_LIMIT) : newest l = l := by
  unfold newest
  rw [Nat.sub_eq_zero_of_le h]
  rfl

theorem mem_ids_newest (hid : id ∈ ids l) (hnewer : newer id (ids l) < ENTRY_LIMIT) : id ∈ ids (newest l) := by
  have hmem := mem_drop_of_newer hid hnewer
  rw [List.length_map] at hmem
  unfold ids newest
  rw [List.map_drop]
  exact hmem

theorem splice_spec {protectedOperationId : String} (h : splice protectedOperationId l = some l') :
    l'.Sublist l ∧ (protectedOperationId ∈ ids l → protectedOperationId ∈ ids l') := by
  induction l generalizing l' with
  | nil => cases h
  | cons entry l ih =>
    unfold splice at h
    split_ifs at h with hne
    · cases h
      refine ⟨List.sublist_cons_self _ _, fun hmem => ?_⟩
      exact (List.mem_cons.mp hmem).resolve_left (Ne.symm hne)
    · obtain ⟨kept, hkept, rfl⟩ := Option.map_eq_some_iff.mp h
      refine ⟨(ih hkept).1.cons_cons entry, fun _ => ?_⟩
      rw [← not_not.mp hne]
      exact List.mem_cons_self

theorem trim_spec (codec : Codec) (protectedOperationId : String) (n : ℕ) (l : List Entry) :
    (trim codec protectedOperationId n l).Sublist l ∧
      (protectedOperationId ∈ ids l → protectedOperationId ∈ ids (trim codec protectedOperationId n l)) := by
  induction n generalizing l with
  | zero => exact ⟨List.Sublist.refl _, id⟩
  | succ n ih =>
    unfold trim
    split_ifs
    · cases hsplice : splice protectedOperationId l with
      | none => exact ⟨List.Sublist.refl _, id⟩
      | some l' =>
        obtain ⟨hsub, hprotected⟩ := splice_spec hsplice
        exact ⟨(ih l').1.trans hsub, fun hmem => (ih l').2 (hprotected hmem)⟩
    · exact ⟨List.Sublist.refl _, id⟩

theorem bounded_spec {protectedOperationId : String}
    (h : bounded codec current protectedOperationId = some kept) :
    kept.Sublist (newest current) ∧ codec.bytes kept ≤ BYTE_LIMIT ∧
      (protectedOperationId ∈ ids (newest current) → protectedOperationId ∈ ids kept) := by
  unfold bounded at h
  dsimp only at h
  split_ifs at h with hbytes
  cases h
  obtain ⟨hsub, hprotected⟩ := trim_spec codec protectedOperationId (newest current).length (newest current)
  exact ⟨hsub, Nat.not_lt.mp hbytes, hprotected⟩

/-! ## One write -/

theorem ids_replace (c : Entry) (l : List Entry) : ids (replace c l) = ids l := by
  induction l with
  | nil => rfl
  | cons entry l ih =>
    unfold replace
    split_ifs with heq
    · simp [ids, heq]
    · simp only [ids, List.map_cons, List.cons.injEq, true_and]
      exact ih

theorem mem_replace_of_ne (he : e ∈ l) (hne : e.operationId ≠ c.operationId) : e ∈ replace c l := by
  induction l with
  | nil => cases he
  | cons entry l ih =>
    unfold replace
    rcases List.mem_cons.mp he with rfl | hmem
    · rw [if_neg hne]
      exact List.mem_cons_self
    · split_ifs
      · exact List.mem_cons_of_mem _ hmem
      · exact List.mem_cons_of_mem _ (ih hmem)

theorem mem_replace_self (hid : c.operationId ∈ ids l) : c ∈ replace c l := by
  induction l with
  | nil => cases hid
  | cons entry l ih =>
    unfold replace
    split_ifs with heq
    · exact List.mem_cons_self
    · exact List.mem_cons_of_mem _ (ih ((List.mem_cons.mp hid).resolve_left (Ne.symm heq)))

theorem find_none (h : find l id = none) : id ∉ ids l := by
  intro hmem
  obtain ⟨entry, hentry, hid⟩ := List.mem_map.mp hmem
  have hnot := List.find?_eq_none.mp h entry hentry
  simp [hid] at hnot

theorem find_some (h : find l id = some e) : e ∈ l ∧ e.operationId = id :=
  ⟨List.mem_of_find?_eq_some h, by simpa using List.find?_some h⟩

theorem find_of_mem (hnodup : (ids l).Nodup) (he : e ∈ l) : find l e.operationId = some e :=
  List.find?_of_nodup_map hnodup he

theorem nodup_append_new (hnodup : (ids l).Nodup) (hnew : c.operationId ∉ ids l) : (ids (l ++ [c])).Nodup :=
  List.nodup_map_snoc hnodup fun x hx heq => hnew (List.mem_map.mpr ⟨x, hx, heq⟩)

/-- The journal after a write. -/
def State.written (s : State) (current kept : List Entry) (isNew : Bool) : State where
  store := { s.store with current := some kept }
  appends := s.appends + if isNew then 1 else 0
  evicted := s.evicted ++ (ids (newest current)).filter fun id => id ∉ ids kept

/-- One entry is put into the journal. -/
inductive Write (codec : Codec) (s : State) (c : Entry) : State → Prop
  | append {kept : List Entry} (hnew : c.operationId ∉ ids (entries codec s.store))
      (hkept : bounded codec (entries codec s.store ++ [c]) c.operationId = some kept) :
      Write codec s c (s.written (entries codec s.store ++ [c]) kept true)
  | replace {kept : List Entry} {found : Entry} (hfound : found ∈ entries codec s.store)
      (hid : found.operationId = c.operationId) (hkind : found.kind = c.kind)
      (hdigest : found.requestDigest = c.requestDigest)
      (hkept : bounded codec (Operations.replace c (entries codec s.store)) c.operationId = some kept) :
      Write codec s c (s.written (Operations.replace c (entries codec s.store)) kept false)

theorem keep_spec (codec : Codec) (s : State) (current : List Entry) (id : String) (isNew : Bool) (fate : Fate) :
    (∃ kept, bounded codec current id = some kept ∧
      (keep codec s current id isNew fate).1 = s.written current kept isNew) ∨
      (keep codec s current id isNew fate).1 = s ∧ (keep codec s current id isNew fate).2 ≠ none := by
  unfold keep
  cases hbounded : bounded codec current id with
  | none => exact .inr ⟨rfl, nofun⟩
  | some kept =>
    cases fate with
    | ok => exact .inl ⟨kept, rfl, rfl⟩
    | fails took | dies took =>
      cases took with
      | true => exact .inl ⟨kept, rfl, rfl⟩
      | false => exact .inr ⟨rfl, nofun⟩

theorem complete_spec (codec : Codec) (s : State) (kind : OperationKind) (operationId requestDigest : String)
    (result : OperationResult) (fate : Fate) :
    Write codec s ⟨kind, operationId, requestDigest, .complete result⟩
        (complete codec s kind operationId requestDigest result fate).1 ∨
      (complete codec s kind operationId requestDigest result fate).1 = s ∧
        (complete codec s kind operationId requestDigest result fate).2 ≠ none := by
  unfold complete
  dsimp only
  cases hfind : find (entries codec s.store) operationId with
  | none =>
    rcases keep_spec codec s (entries codec s.store ++ [⟨kind, operationId, requestDigest, .complete result⟩])
      operationId true fate with ⟨kept, hkept, heq⟩ | hsame
    · rw [heq]
      exact .inl (.append (find_none hfind) hkept)
    · exact .inr hsame
  | some =>
    dsimp only
    obtain ⟨hmem, hid⟩ := find_some hfind
    split_ifs with hconflict
    · exact .inr ⟨rfl, nofun⟩
    · rcases keep_spec codec s (replace ⟨kind, operationId, requestDigest, .complete result⟩
        (entries codec s.store)) operationId false fate with ⟨kept, hkept, heq⟩ | hsame
      · rw [heq]
        exact .inl (.replace hmem hid (not_not.mp fun h => hconflict (.inl h))
          (not_not.mp fun h => hconflict (.inr h)) hkept)
      · exact .inr hsame

theorem work_spec (codec : Codec) (s : State) (kind : OperationKind) (operationId requestDigest : String)
    (script : Script) : (work codec s kind operationId requestDigest script).ran = some (entries codec s.store) ∧
      ((work codec s kind operationId requestDigest script).state = s ∨ ∃ result,
        Write codec s ⟨kind, operationId, requestDigest, .complete result⟩
          (work codec s kind operationId requestDigest script).state) := by
  unfold work
  split
  next => exact ⟨rfl, .inl rfl⟩
  next => exact ⟨rfl, .inl rfl⟩
  next result _ =>
    split_ifs
    · exact ⟨rfl, .inl rfl⟩
    · exact ⟨rfl, .inl rfl⟩
    · have hcomplete := complete_spec codec s kind operationId requestDigest result script.complete
      generalize complete codec s kind operationId requestDigest result script.complete = after at hcomplete
      obtain ⟨after, answer⟩ := after
      cases answer with
      | none => exact ⟨rfl, .inr ⟨result, hcomplete.resolve_right fun h => h.2 rfl⟩⟩
      | some => exact ⟨rfl, hcomplete.elim (fun h => .inr ⟨result, h⟩) fun h => .inl h.1⟩

/-- Where an operation that may run starts from: its intent is in the journal, or was put there just now. -/
inductive Begun (codec : Codec) (s : State) (kind : OperationKind)
    (operationId requestDigest : String) : State → Prop
  | found {intent : Entry} (hfound : intent ∈ entries codec s.store) (hid : intent.operationId = operationId)
      (hstate : intent.state = .intent) : Begun codec s kind operationId requestDigest s
  | stored {after : State} (hwrite : Write codec s ⟨kind, operationId, requestDigest, .intent⟩ after)
      (hnew : operationId ∉ ids (entries codec s.store)) : Begun codec s kind operationId requestDigest after

theorem perform_spec (codec : Codec) (s : State) (kind : OperationKind) (operationId request : String)
    (script : Script) : (perform codec s kind operationId request script).ran = none ∧
        ((perform codec s kind operationId request script).state = s ∨
          Begun codec s kind operationId (codec.sha.of request)
            (perform codec s kind operationId request script).state) ∨
      ∃ begun, Begun codec s kind operationId (codec.sha.of request) begun ∧
        (perform codec s kind operationId request script).ran = some (entries codec begun.store) ∧
        ((perform codec s kind operationId request script).state = begun ∨ ∃ result,
          Write codec begun ⟨kind, operationId, codec.sha.of request, .complete result⟩
            (perform codec s kind operationId request script).state) := by
  unfold perform
  dsimp only
  cases hfind : find (entries codec s.store) operationId with
  | some found =>
    obtain ⟨hmem, hid⟩ := find_some hfind
    dsimp only
    split_ifs
    · exact .inl ⟨rfl, .inl rfl⟩
    · cases hstate : found.state with
      | complete => exact .inl ⟨rfl, .inl rfl⟩
      | intent => exact .inr ⟨s, .found hmem hid hstate, work_spec codec s kind operationId _ script⟩
  | none =>
    have hnew := find_none hfind
    have hkeep :=
      keep_spec codec s (entries codec s.store ++ [⟨kind, operationId, codec.sha.of request, .intent⟩])
      operationId true script.intent
    generalize keep codec s (entries codec s.store ++ [⟨kind, operationId, codec.sha.of request, .intent⟩])
      operationId true script.intent = after at hkeep
    obtain ⟨after, answer⟩ := after
    cases answer with
    | none =>
      obtain ⟨kept, hkept, heq⟩ := hkeep.resolve_right fun h => h.2 rfl
      subst heq
      exact .inr ⟨_, .stored (.append hnew hkept) hnew, work_spec codec _ kind operationId _ script⟩
    | some =>
      refine .inl ⟨rfl, ?_⟩
      rcases hkeep with ⟨kept, hkept, heq⟩ | ⟨hsame, -⟩
      · subst heq
        exact .inr (.stored (.append hnew hkept) hnew)
      · exact .inl hsame

/-! ## The journal is sound -/

structure Sound (codec : Codec) (s : State) : Prop where
  nodup : (ids (entries codec s.store)).Nodup
  bounds : ∀ l, s.store.current = some l → l.length ≤ ENTRY_LIMIT ∧ codec.bytes l ≤ BYTE_LIMIT

theorem entries_written (current kept : List Entry) (isNew : Bool) :
    entries codec (s.written current kept isNew).store = kept := rfl

section

variable (hs : Sound codec s)
include hs

/-- What is written is in order of what was there, with the one entry. -/
theorem Write.nodup (h : Write codec s c s') :
    ∃ current kept isNew, s' = s.written current kept isNew ∧ bounded codec current c.operationId = some kept ∧
      (ids current).Nodup := by
  cases h with
  | append hnew hkept => exact ⟨_, _, _, rfl, hkept, nodup_append_new hs.nodup hnew⟩
  | replace hfound hid _ _ hkept =>
    refine ⟨_, _, _, rfl, hkept, ?_⟩
    rw [ids_replace]
    exact hs.nodup

theorem Sound.write (h : Write codec s c s') : Sound codec s' := by
  obtain ⟨current, kept, isNew, rfl, hkept, hnodup⟩ := h.nodup hs
  obtain ⟨hsub, hbytes, -⟩ := bounded_spec hkept
  refine ⟨?_, fun l hl => ?_⟩
  · exact hnodup.sublist ((hsub.trans (newest_sublist current)).map _)
  · cases hl
    exact ⟨hsub.length_le.trans (length_newest_le current), hbytes⟩

omit hs in
theorem intent_current {intent : Entry} (hfound : intent ∈ entries codec s.store)
    (hstate : intent.state = .intent) : ∃ l, s.store.current = some l := by
  cases hcurrent : s.store.current with
  | some l => exact ⟨l, rfl⟩
  | none =>
    -- what is migrated is complete
    unfold entries at hfound
    rw [hcurrent] at hfound
    obtain ⟨legacy, -, hmigrated⟩ := List.mem_filterMap.mp hfound
    simp only [LegacyEntry.migrated, Option.bind_eq_bind, Option.bind_eq_some_iff, Option.pure_def,
      Option.some.injEq] at hmigrated
    obtain ⟨_, -, _, -, _, -, _, -, _, -, rfl⟩ := hmigrated
    cases hstate

/-- An entry that is put into the journal is not dropped by the same write. -/
theorem Write.protects (h : Write codec s c s')
    (hcurrent : c.operationId ∈ ids (entries codec s.store) → ∃ l, s.store.current = some l) :
    c.operationId ∈ ids (entries codec s'.store) := by
  cases h with
  | append hnew hkept =>
    rw [entries_written]
    refine (bounded_spec hkept).2.2 (mem_ids_newest ?_ ?_)
    · exact List.mem_map_of_mem List.mem_concat_self
    · -- it is the last one
      have hlast : newer c.operationId (ids (entries codec s.store ++ [c])) = 0 := by
        rw [ids, List.map_append]
        exact newer_eq hnew
      rw [hlast]
      decide
  | replace hfound hid _ _ hkept =>
    have hmem : c.operationId ∈ ids (entries codec s.store) := hid ▸ List.mem_map_of_mem hfound
    obtain ⟨l, hl⟩ := hcurrent hmem
    have hentries : entries codec s.store = l := by
      unfold entries
      rw [hl]
    rw [entries_written]
    refine (bounded_spec hkept).2.2 ?_
    have hlen : (Operations.replace c (entries codec s.store)).length ≤ ENTRY_LIMIT := by
      have hsame := congrArg List.length (ids_replace c (entries codec s.store))
      simp only [ids, List.length_map] at hsame
      rw [hsame, hentries]
      exact (hs.bounds l hl).1
    rw [newest_of_le hlen, ids_replace]
    exact hmem

variable {begun : State} {kind : OperationKind} {operationId requestDigest : String} {ev : Event}

section

variable (h : Begun codec s kind operationId requestDigest begun)
include h

theorem Begun.sound :
    Sound codec begun := by
  cases h with
  | found => exact hs
  | stored hwrite => exact hs.write hwrite

/-- While the work runs, the journal names the operation; it is written by then. -/
theorem Begun.holds :
    operationId ∈ ids (entries codec begun.store) ∧ ∃ l, begun.store.current = some l := by
  cases h with
  | found hfound hid hstate => exact ⟨hid ▸ List.mem_map_of_mem hfound, intent_current hfound hstate⟩
  | stored hwrite hnew =>
    refine ⟨hwrite.protects hs fun hmem => absurd hmem hnew, ?_⟩
    obtain ⟨current, kept, isNew, rfl, -⟩ := hwrite.nodup hs
    exact ⟨kept, rfl⟩

/-- The intent of an operation that has begun is all that the journal has of it. -/
theorem Begun.intent {x : Entry}
    (hx : x ∈ entries codec begun.store) (hid : x.operationId = operationId) : x.state = .intent := by
  cases h with
  | found hfound hfoundId hstate =>
    obtain rfl := List.inj_on_of_nodup_map hs.nodup hx hfound (hid.trans hfoundId.symm)
    exact hstate
  | stored hwrite hnew =>
    cases hwrite with
    | append _ hkept =>
      have hmem := ((bounded_spec hkept).1.trans (newest_sublist _)).subset hx
      rcases List.mem_append.mp hmem with hold | hnewest
      · exact absurd (hid ▸ List.mem_map_of_mem hold) hnew
      · rw [List.mem_singleton.mp hnewest]
    | replace hfound hfoundId => exact absurd (List.mem_map.mpr ⟨_, hfound, hfoundId⟩) hnew

/-- The results that copies of an operation bring. -/
def copied (operationId : String) (es : List Event) : List OperationResult :=
  es.filterMap fun
    | .copy id _ result _ => if id = operationId then some result else none
    | .perform .. => none

/-- The writes of a step. Each is of an operation that the journal has no receipt of, or is the copy that the step
makes. -/
inductive Writes (codec : Codec) (ev : Event) : State → State → Prop
  | done (s : State) : Writes codec ev s s
  | write {s s' s'' : State} {c : Entry} (hwrite : Write codec s c s')
      (hown : (∀ x ∈ entries codec s.store, x.operationId = c.operationId → x.state = .intent) ∨
        ∃ result ∈ copied c.operationId [ev], c.state = .complete result)
      (hrest : Writes codec ev s' s'') : Writes codec ev s s''

omit hs in
theorem Begun.writes (hrest : Writes codec ev begun s') :
    Writes codec ev s s' := by
  cases h with
  | found => exact hrest
  | stored hwrite hnew =>
    exact .write hwrite (.inl fun x hx hid => absurd (List.mem_map.mpr ⟨x, hx, hid⟩) hnew) hrest

end

theorem step_writes (ev : Event) : Writes codec ev s (step codec s ev) := by
  cases ev with
  | perform kind operationId request script =>
    change Writes codec _ s (perform codec s kind operationId request script).state
    rcases perform_spec codec s kind operationId request script with
      ⟨-, hsame | hbegun⟩ | ⟨begun, hbegun, -, hsame | ⟨result, hwrite⟩⟩
    · rw [hsame]
      exact .done s
    · exact hbegun.writes (.done _)
    · rw [hsame]
      exact hbegun.writes (.done _)
    · exact hbegun.writes (.write hwrite (.inl fun x hx hid => hbegun.intent hs hx hid) (.done _))
  | copy operationId task result fate =>
    dsimp only [step, completeDurableTaskOperation]
    split_ifs
    · exact .done s
    · rcases complete_spec codec s .task operationId (codec.sha.of task) result fate with hwrite | ⟨hsame, -⟩
      · exact .write hwrite (.inr ⟨result, by simp [copied], rfl⟩) (.done _)
      · rw [hsame]
        exact .done s

theorem Sound.writes (h : Writes codec ev s s') : Sound codec s' := by
  induction h with
  | done => exact hs
  | write hwrite _ _ ih => exact ih (hs.write hwrite)

theorem Sound.step (ev : Event) : Sound codec (step codec s ev) := hs.writes (step_writes hs ev)

/-- An operation that is being performed keeps its entry. -/
theorem perform_protects {request : String} {script : Script} {during : List Entry}
    (hran : (perform codec s kind operationId request script).ran = some during) :
    operationId ∈ ids during ∧ operationId ∈
      ids (entries codec (perform codec s kind operationId request script).state.store) := by
  rcases perform_spec codec s kind operationId request script with
    ⟨hnone, -⟩ | ⟨begun, hbegun, hsome, hafter⟩
  · cases hnone.symm.trans hran
  · obtain ⟨hmem, hcurrent⟩ := hbegun.holds hs
    obtain rfl := Option.some.inj (hsome.symm.trans hran)
    refine ⟨hmem, ?_⟩
    rcases hafter with hsame | ⟨result, hwrite⟩
    · rw [hsame]
      exact hmem
    · exact hwrite.protects (hbegun.sound hs) fun _ => hcurrent

/-! ## A receipt stays -/

/-- An operation's receipt with one of some results, in a journal where it came to stand before no more than
`place` entries and those that were stored since. -/
def Kept (codec : Codec) (e : Entry) (results : List OperationResult) (place : ℕ) (s : State) : Prop :=
  ∃ result ∈ results, { e with state := .complete result } ∈ entries codec s.store ∧
    newer e.operationId (ids (entries codec s.store)) ≤ place + s.appends

variable {place : ℕ}

omit hs in
/-- An entry that few come after, and that the byte limit does not remove, is in what is written. -/
theorem survives {isNew : Bool} {x : Entry} (hx : x ∈ current) (hnodup : (ids current).Nodup)
    (hkept : bounded codec current id = some kept)
    (hplace : newer x.operationId (ids current) ≤ place + (s.written current kept isNew).appends)
    (hfew : place + (s.written current kept isNew).appends < ENTRY_LIMIT)
    (hevicted : x.operationId ∉ (s.written current kept isNew).evicted) :
    x ∈ kept ∧ newer x.operationId (ids kept) ≤ place + (s.written current kept isNew).appends := by
  obtain ⟨hsub, -, -⟩ := bounded_spec hkept
  have hall := hsub.trans (newest_sublist current)
  have hnewest : x.operationId ∈ ids (newest current) :=
    mem_ids_newest (List.mem_map_of_mem hx) (Nat.lt_of_le_of_lt hplace hfew)
  have hmem : x.operationId ∈ ids kept := by
    by_contra hnot
    exact hevicted (List.mem_append_right _ (List.mem_filter.mpr ⟨hnewest, decide_eq_true hnot⟩))
  obtain ⟨y, hy, hid⟩ := List.mem_map.mp hmem
  obtain rfl := List.inj_on_of_nodup_map hnodup (hall.subset hy) hx hid
  exact ⟨hy, (newer_sublist (hall.map _) hnodup hmem).trans hplace⟩

omit hs in
theorem Write.grows (h : Write codec s c s') : s.appends ≤ s'.appends ∧ s.evicted ⊆ s'.evicted := by
  cases h with
  | append | replace => exact ⟨Nat.le_add_right _ _, List.subset_append_left _ _⟩

theorem Kept.write (h : Kept codec e results place s) (hwrite : Write codec s c s')
    (hown : c.operationId = e.operationId → ∃ result ∈ results, c.state = .complete result)
    (hfew : place + s'.appends < ENTRY_LIMIT) (hevicted : e.operationId ∉ s'.evicted) :
    Kept codec e results place s' := by
  obtain ⟨result, hresult, hmem, hplace⟩ := h
  have hid : e.operationId ∈ ids (entries codec s.store) := List.mem_map.mpr ⟨_, hmem, rfl⟩
  cases hwrite with
  | append hnew hkept =>
    have hnodup := nodup_append_new hs.nodup hnew
    -- one more comes after it, and one more was stored
    have hplace' : newer e.operationId (ids (entries codec s.store ++ [c])) ≤ place + (s.appends + 1) := by
      rw [ids, List.map_append, List.map_singleton, newer_append hid]
      omega
    obtain ⟨hin, hafter⟩ :=
      survives (x := { e with state := .complete result }) (List.mem_append_left _ hmem) hnodup hkept
      hplace' hfew hevicted
    exact ⟨result, hresult, hin, hafter⟩
  | replace hfound hsame hkind hdigest hkept =>
    have hnodup : (ids (replace c (entries codec s.store))).Nodup := by
      rw [ids_replace]
      exact hs.nodup
    have hplace' : newer e.operationId (ids (replace c (entries codec s.store))) ≤ place + s.appends := by
      rw [ids_replace]
      exact hplace
    by_cases hc : c.operationId = e.operationId
    · -- its own entry is replaced, by one of the same kind and request
      obtain ⟨result', hresult', hstate⟩ := hown hc
      obtain rfl := List.inj_on_of_nodup_map hs.nodup hfound hmem (hsame.trans hc)
      have hentry : c = { e with state := .complete result' } := by
        cases c
        simp only [Entry.mk.injEq]
        exact ⟨hkind.symm, hc, hdigest.symm, hstate⟩
      have hin : c ∈ replace c (entries codec s.store) := mem_replace_self (hc ▸ hid)
      obtain ⟨hin', hafter⟩ := survives (x := c) hin hnodup hkept (hc ▸ hplace') hfew (hc ▸ hevicted)
      exact ⟨result', hresult', hentry ▸ hin', hc ▸ hafter⟩
    · have hin := mem_replace_of_ne (c := c) hmem (Ne.symm hc)
      obtain ⟨hin', hafter⟩ :=
        survives (x := { e with state := .complete result }) hin hnodup hkept hplace' hfew hevicted
      exact ⟨result, hresult, hin', hafter⟩

/-- An operation with a receipt is answered from it, and one with another request is refused; nothing is run. -/
theorem perform_receipt {result : OperationResult}
    (hmem : { e with state := .complete result } ∈ entries codec s.store) (kind : OperationKind)
    (request : String) (script : Script) :
    perform codec s kind e.operationId request script =
      if kind = e.kind ∧ codec.sha.of request = e.requestDigest then ⟨s, .returned result, none⟩
      else ⟨s, .conflict, none⟩ := by
  have hfind : find (entries codec s.store) e.operationId = some { e with state := .complete result } :=
    find_of_mem (e := { e with state := .complete result }) hs.nodup hmem
  unfold perform
  dsimp only
  rw [hfind]
  dsimp only
  by_cases hsame : kind = e.kind ∧ codec.sha.of request = e.requestDigest
  · obtain ⟨rfl, hdigest⟩ := hsame
    rw [if_neg, if_pos ⟨rfl, hdigest⟩]
    rintro (hne | hne)
    · exact hne rfl
    · exact hne hdigest.symm
  · rw [if_pos, if_neg hsame]
    by_contra hnot
    exact hsame ⟨(not_not.mp fun h => hnot (.inl h)).symm, (not_not.mp fun h => hnot (.inr h)).symm⟩

end

theorem Writes.grows (h : Writes codec ev s s') : s.appends ≤ s'.appends ∧ s.evicted ⊆ s'.evicted := by
  induction h with
  | done => exact ⟨Nat.le_refl _, List.Subset.refl _⟩
  | write hwrite _ _ ih => exact ⟨hwrite.grows.1.trans ih.1, List.Subset.trans hwrite.grows.2 ih.2⟩

theorem exec_grows (es : List Event) (hs : Sound codec s) :
    s.appends ≤ (Run.exec (step codec) s es).appends ∧ s.evicted ⊆ (Run.exec (step codec) s es).evicted := by
  induction es generalizing s with
  | nil => exact ⟨Nat.le_refl _, List.Subset.refl _⟩
  | cons ev es ih =>
    obtain ⟨hless, hsub⟩ := (step_writes hs ev).grows
    obtain ⟨hless', hsub'⟩ := ih (hs.step ev)
    exact ⟨hless.trans hless', List.Subset.trans hsub hsub'⟩

theorem Kept.writes (h : Kept codec e results place s) (hs : Sound codec s)
    (hwrites : Writes codec ev s s') (hcopied : copied e.operationId [ev] ⊆ results)
    (hfew : place + s'.appends < ENTRY_LIMIT) (hevicted : e.operationId ∉ s'.evicted) :
    Kept codec e results place s' := by
  induction hwrites with
  | done => exact h
  | write hwrite hown hrest ih =>
    refine ih ?_ (hs.write hwrite) hfew hevicted
    obtain ⟨hless, hsub⟩ := hrest.grows
    refine h.write hs hwrite (fun heq => ?_) (Nat.lt_of_le_of_lt (Nat.add_le_add_left hless _) hfew)
      fun hmem => hevicted (hsub hmem)
    -- the journal has its receipt, so that only a copy writes under its id
    obtain ⟨result, -, hmem, -⟩ := h
    rcases hown with hintent | ⟨copy, hcopy, hstate⟩
    · cases hintent _ hmem heq.symm
    · exact ⟨copy, hcopied (heq ▸ hcopy), hstate⟩

/-- While few operations are stored after it and the byte limit spares it, a receipt stays. -/
theorem Kept.exec (es : List Event) (hs : Sound codec s)
    (h : Kept codec e results place s) (hcopied : copied e.operationId es ⊆ results)
    (hfew : place + (Run.exec (Operations.step codec) s es).appends < ENTRY_LIMIT)
    (hevicted : e.operationId ∉ (Run.exec (Operations.step codec) s es).evicted) :
    Kept codec e results place (Run.exec (Operations.step codec) s es) := by
  induction es generalizing s with
  | nil => exact h
  | cons ev es ih =>
    obtain ⟨hless, hsub⟩ := exec_grows es (hs.step ev)
    have hsplit : copied e.operationId (ev :: es) = copied e.operationId [ev] ++ copied e.operationId es := by
      unfold copied
      rw [← List.filterMap_append]
      rfl
    rw [hsplit] at hcopied
    refine ih (hs.step ev) ?_ (fun _ hmem => hcopied (List.mem_append_right _ hmem)) hfew hevicted
    exact h.writes hs (step_writes hs ev) (fun _ hmem => hcopied (List.mem_append_left _ hmem))
      (Nat.lt_of_le_of_lt (Nat.add_le_add_left hless _) hfew) fun hmem => hevicted (hsub hmem)

end DenEdge.Operations
