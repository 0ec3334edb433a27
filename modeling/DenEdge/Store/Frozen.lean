import DenEdge.Store.Fences

/-!
# A locked library is frozen

While the exclusive-operation lock of a library is set, nothing but the lock and the records of exclusive
operations changes: batches, rewrites and member registrations are refused, exclusive commits touch neither rows
nor protocol, and opening the file again finds it where its entry says.

* `Frozen`: two file states with the same rows and the same protocol.
* `ShelfEvent.refusedUnread`: the refusals that come before the lock is looked at.
* `step_frozen`, `run_frozen`: the step and the run lemma.
-/

namespace DenEdge

/-- The same rows and the same protocol. -/
structure Frozen (db db' : Db) : Prop where
  rows : db'.toIndex = db.toIndex
  protocol : readProtocol db' = readProtocol db

theorem Frozen.trans {a b c : Db} (hab : Frozen a b) (hbc : Frozen b c) : Frozen a c :=
  ⟨hbc.rows.trans hab.rows, hbc.protocol.trans hab.protocol⟩

/-- What a mutation is refused with before the lock is looked at: its keys, and of a rewrite also its size. -/
def ShelfEvent.refusedUnread : ShelfEvent → Option StoreError
  | .apply writes _ _ _ _ =>
    if MAX_WRITES < writes.length ∨ ¬ validKeys (writes.map Cas.Write.key) then
      some (.invalid "invalid or duplicate v3 write")
    else none
  | .rewrite base rows _ liveCap _ =>
    if MAX_ROWS < rows.length ∨ ¬ validKeys (rows.map RewriteRow.key) then some (.invalid "invalid rewrite rows")
    else match prepareRows base 0 rows with
      | .error error => some error
      | .ok (_, liveBytes) => if liveCap < liveBytes then some .full else none
  | _ => none

/-- A mutation of the rows or the members, as a lease offers them. -/
def ShelfEvent.isMutation : ShelfEvent → Bool
  | .apply .. | .rewrite .. | .registerMember _ => true
  | _ => false

def ShelfEvent.isRestore : ShelfEvent → Bool
  | .restore _ => true
  | _ => false

/-! ## Refusals -/

variable {db : Db} {p : Protocol}

theorem applyTiered_locked (hlock : db.lock.isSome) (writes : List Write) (liveCap wireMin : ℕ)
    (tier : VisitorTier) (authority : WriteAuthority) :
    applyTiered db writes liveCap wireMin tier authority =
      .error ((ShelfEvent.apply writes liveCap wireMin tier authority).refusedUnread.getD .locked) := by
  unfold applyTiered batchChecks ShelfEvent.refusedUnread
  by_cases hshape : MAX_WRITES < writes.length ∨ ¬ validKeys (writes.map Cas.Write.key) = true
  · simp only [if_pos hshape]
    rfl
  · simp only [if_neg hshape, if_pos hlock]
    rfl

theorem rewrite_locked (hlock : db.lock.isSome) (base : ℕ) (rows : List RewriteRow) (wireMin liveCap : ℕ)
    (fresh : String) :
    rewrite db base rows wireMin liveCap fresh =
      .error ((ShelfEvent.rewrite base rows wireMin liveCap fresh).refusedUnread.getD .locked) := by
  unfold rewrite ShelfEvent.refusedUnread
  by_cases hshape : MAX_ROWS < rows.length ∨ ¬ validKeys (rows.map RewriteRow.key) = true
  · simp only [if_pos hshape]
    rfl
  · simp only [if_neg hshape]
    cases hprep : prepareRows base 0 rows with
    | error => rfl
    | ok prepared =>
      obtain ⟨prepared, liveBytes⟩ := prepared
      simp only [Except.ok_bind]
      by_cases hcap : liveCap < liveBytes
      · simp only [if_pos hcap]
        rfl
      · simp only [if_neg hcap, if_pos hlock]
        rfl

theorem registerMember_locked (hlock : db.lock.isSome) (cached : Option Hash) (member : Hash) :
    registerMember db cached member = .error .locked := by
  unfold registerMember
  rw [if_pos hlock]

/-! ## Opening a file where its entry is -/

theorem openStore_frozen {codec : FragmentCodec} {db' : Db} {token : Hash} {member cached : Option Hash}
    {fresh : String} (hdb : PackedStore db) (hp : readProtocol db = .ok p)
    (hok : openStore codec db token member fresh = .ok (db', cached)) : Frozen db db' := by
  obtain ⟨hhead, hgen, -, -⟩ := readProtocol_ok hp
  unfold openStore at hok
  split at hok
  · rename_i hnone
    have := hdb.1
    rw [hnone] at this
    cases this
  split at hok
  · cases hok
  split at hok
  · cases hok
  split at hok
  · cases hok
  obtain ⟨db₁, hrecharge, hok⟩ := Except.bind_ok.mp hok
  cases hok
  -- a packed store is not recounted
  rw [recharge, if_pos hdb.2.1] at hrecharge
  cases hrecharge
  refine ⟨rfl, ?_⟩
  simp [readProtocol, hhead, hgen]

theorem reconcileProtocol_agrees (hp : readProtocol db = .ok p) (fresh : String) :
    reconcileProtocol db (some (IndexedProtocol.of p)) false fresh = .ok (db, p) := by
  unfold reconcileProtocol
  rw [hp]
  simp [restored, reconciledMigration, IndexedProtocol.of]

namespace Shelf

/-- The file is a packed store with these rows and this protocol, and the entry is of it. -/
structure FrozenAt (db : Db) (p : Protocol) (s : Shelf) : Prop where
  file : ∃ db', s.file = some db' ∧ PackedStore db' ∧ Frozen db db'
  protocol : readProtocol db = .ok p
  index : s.index = some (IndexedProtocol.of p)

/-- The lock of the file, as an exclusive operation finds it. -/
def lock (s : Shelf) : Option String := s.file.bind Db.lock

/-- **Every operation of a locked library leaves it frozen**, whatever it does to the lock; a mutation is refused
and leaves even the records. -/
theorem step_frozen (codec : FragmentCodec) {s : Shelf} {e : ShelfEvent}
    (h : FrozenAt db p s) (hlock : s.lock.isSome) (he : e.isRestore = false) :
    FrozenAt db p (s.step codec e).1 ∧
      (e.isMutation = true → s.handle.isSome →
        (s.step codec e).2 = .error (e.refusedUnread.getD .locked) ∧ (s.step codec e).1.file = s.file) := by
  obtain ⟨file, index, handle, copies, drawn⟩ := s
  obtain ⟨⟨db', hfile, hdb', hfrozen⟩, hp, hindex⟩ := h
  subst hfile hindex
  have hp' : readProtocol db' = .ok p := hfrozen.protocol.trans hp
  have hlocked : db'.lock.isSome := hlock
  have hsame : ∀ gs, FrozenAt db p ⟨some db', some (IndexedProtocol.of p), handle, copies, gs⟩ :=
    fun gs => ⟨⟨db', rfl, hdb', hfrozen⟩, hp, rfl⟩
  cases e with
  | restore => cases he
  | restart =>
    refine ⟨⟨⟨db', rfl, hdb', hfrozen⟩, hp, rfl⟩, fun hm => ?_⟩
    cases hm
  | library _ _ second =>
    refine ⟨?_, fun hm => by cases hm⟩
    cases handle with
    | some => exact hsame _
    | none =>
      simp only [step, act, library]
      split
      · exact hsame _
      rename_i opened cached hopen
      have hopened := openStore_frozen hdb' hp' hopen
      have hpo : readProtocol opened = .ok p := hopened.protocol.trans hp'
      have hpacked := openStore_packed (Or.inr (Or.inr hdb')) hopen
      -- the file is where its entry says, so nothing is reconciled
      rw [show (some db').isNone = false from rfl, reconcileProtocol_agrees hpo second]
      exact ⟨⟨opened, rfl, hpacked, hfrozen.trans hopened⟩, hp, rfl⟩
  | apply =>
    cases handle with
    | none => exact ⟨hsame _, fun _ hopen => by cases hopen⟩
    | some =>
      simp only [step, act, applyTiered_locked hlocked]
      exact ⟨hsame _, fun _ _ => ⟨trivial, trivial⟩⟩
  | rewrite =>
    cases handle with
    | none => exact ⟨hsame _, fun _ hopen => by cases hopen⟩
    | some =>
      simp only [step, act, rewrite_locked hlocked]
      exact ⟨hsame _, fun _ _ => ⟨trivial, trivial⟩⟩
  | registerMember =>
    cases handle with
    | none => exact ⟨hsame _, fun _ hopen => by cases hopen⟩
    | some =>
      simp only [step, act, register, registerMember_locked hlocked]
      exact ⟨hsame _, fun _ _ => ⟨rfl, trivial⟩⟩
  | exclusive =>
    refine ⟨?_, fun hm => by cases hm⟩
    cases handle with
    | none => exact hsame _
    | some =>
      simp only [step, act]
      split
      · exact hsame _
      · rename_i db₁ hok
        obtain ⟨heq, -⟩ := exclusiveCommit_ok hok
        refine ⟨⟨db₁, rfl, exclusiveCommit_packed hdb' hok, hfrozen.trans ?_⟩, hp, rfl⟩
        rw [heq]
        exact ⟨rfl, rfl⟩

/-- The lock is still set after the event. -/
def KeepsLock (codec : FragmentCodec) (s : Shelf) (e : ShelfEvent) : Prop :=
  e.isRestore = false ∧ (s.step codec e).1.lock.isSome = true

instance (codec : FragmentCodec) (s : Shelf) (e : ShelfEvent) : Decidable (KeepsLock codec s e) := by
  unfold KeepsLock
  infer_instance

/-- **A library stays frozen until its lock is cleared.** -/
theorem run_frozen {codec : FragmentCodec} {s : Shelf} {es : List ShelfEvent}
    (h : FrozenAt db p s) (hlock : s.lock.isSome)
    (hes : Run.Meets (fun s e => (s.step codec e).1) (KeepsLock codec) s es) :
    FrozenAt db p (s.run codec es) ∧ (s.run codec es).lock.isSome := by
  refine Run.exec_inv (I := fun t => FrozenAt db p t ∧ t.lock.isSome) ?_ ⟨h, hlock⟩ hes
  rintro t e ⟨ht, hl⟩ ⟨hrestore, hkept⟩
  exact ⟨(step_frozen codec ht hl hrestore).1, hkept⟩

end Shelf

end DenEdge
