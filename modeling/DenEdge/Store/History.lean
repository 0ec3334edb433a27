import DenEdge.Store.Page
import DenEdge.Store.Site

/-!
# The append history

The reference for the store: a history keeps every accepted write and derives the live rows by replaying it, the
newest write of each key winning. A batch judges every write against the live rows before it.

* `AppendHistory.apply`, `AppendHistory.page`: the reference's two operations.
* `Recounts`: a history and the abstract state it stands for.
* `Recounts.apply`: a batch of the history is the abstract batch.
* `page_eq_range`: the history's page is the store's, at the store's limit.
-/

namespace DenEdge

structure CurrentRow where
  key : String
  sequence : ℕ
  value : String

structure ConflictRow where
  key : String
  sequence : ℕ
  value : Option String

structure HistoryResult where
  head : ℕ
  applied : List (String × ℕ)
  conflicts : List ConflictRow

structure Page where
  entries : List CurrentRow
  head : ℕ
  more : Bool

structure AppendHistory where
  head : ℕ
  events : List CurrentRow

namespace AppendHistory

def init : AppendHistory := ⟨0, []⟩

/-- The newest event of each key. -/
def byKey (h : AppendHistory) : Table String CurrentRow :=
  h.events.foldl (fun t e => t.insert e.key e) Table.empty

/-- The live rows, by sequence. -/
def live (h : AppendHistory) : Table ℕ CurrentRow := h.byKey.reindex (fun _ row => row.sequence)

/-- The live rows, by key, as a batch looks them up. -/
def liveByKey (h : AppendHistory) : Table String CurrentRow := h.live.reindex (fun _ row => row.key)

/-- One write of a batch, judged against the rows live before it. -/
def applyWrite (current : Table String CurrentRow) (acc : AppendHistory × HistoryResult) (write : Write) :
    AppendHistory × HistoryResult :=
  let (h, r) := acc
  let row := current.get write.key
  if (row.map CurrentRow.sequence).getD 0 ≠ write.base then
    let conflict := row.elim ⟨write.key, 0, none⟩ (fun row => ⟨row.key, row.sequence, some row.value⟩)
    (h, { r with conflicts := r.conflicts ++ [conflict] })
  else
    (⟨h.head + 1, h.events ++ [⟨write.key, h.head + 1, write.value⟩]⟩,
      { r with head := h.head + 1, applied := r.applied ++ [(write.key, h.head + 1)] })

def apply (h : AppendHistory) (writes : List Write) : AppendHistory × HistoryResult :=
  writes.foldl (applyWrite h.liveByKey) (h, ⟨h.head, [], []⟩)

end AppendHistory

/-- The rows of one page, read back from their fragments: `none` where the source's assertions fail. -/
def pageFromFragments (codec : FragmentCodec) (limit : ℕ) :
    ℕ → ℕ → List (ℕ × String) → Option (List CurrentRow × Bool)
  | _, _, [] => some ([], false)
  | count, pageBytes, (sequence, fragment) :: rows =>
    if count < limit then
      let cost := bytes fragment + (if count = 0 then 0 else 1)
      if count ≠ 0 ∧ PAGE_BYTES < pageBytes + cost then some ([], true)
      else do
        let (k, seq, v) ← codec.decode fragment
        if seq = sequence then
          let (entries, more) ← pageFromFragments codec limit (count + 1) (pageBytes + cost) rows
          some (⟨k, seq, v⟩ :: entries, more)
        else none
    else some ([], true)

/-- The fragment of a live row. -/
def CurrentRow.fragment (row : CurrentRow) : String := rowFragment row.sequence row.key row.value

variable (codec : FragmentCodec)

def AppendHistory.page (h : AppendHistory) (since limit : ℕ) : Option Page := do
  let rows := (h.live.entries.map Prod.snd).filter (fun row => since < row.sequence)
  let (entries, more) ← pageFromFragments codec limit 0 128 (rows.map (fun row => (row.sequence, row.fragment)))
  some ⟨entries, h.head, more⟩

/-! ## The history as an abstract state -/

/-- A history and the abstract state it stands for. -/
structure Recounts (h : AppendHistory) (s : Cas.State String String) : Prop where
  head : h.head = s.head
  rows : ∀ k, h.byKey.get k = (s.view k).map (fun r => ⟨k, r.1, r.2⟩)
  sane : Cas.Sane s

theorem recounts_init : Recounts AppendHistory.init (Cas.State.bare 0) where
  head := rfl
  rows := fun _ => rfl
  sane := Cas.sane_bare 0

namespace Recounts

variable {h : AppendHistory} {s : Cas.State String String}

theorem rows_some (hr : Recounts h s) {k : String} {row : CurrentRow} (hrow : h.byKey.get k = some row) :
    row.key = k ∧ s.view k = some (row.sequence, row.value) := by
  rw [hr.rows k] at hrow
  obtain ⟨r, hview, rfl⟩ := Option.map_eq_some_iff.mp hrow
  exact ⟨rfl, hview⟩

theorem live_get (hr : Recounts h s) {n : ℕ} {row : CurrentRow} :
    h.live.get n = some row ↔ s.view row.key = some (n, row.value) ∧ row.sequence = n := by
  rw [AppendHistory.live, Table.get_reindex]
  · constructor
    · rintro ⟨k, hk, hn⟩
      obtain ⟨rfl, hview⟩ := hr.rows_some hk
      exact ⟨hn ▸ hview, hn⟩
    · rintro ⟨hview, hn⟩
      refine ⟨row.key, ?_, hn⟩
      rw [hr.rows, hview, ← hn]
      rfl
  · intro k row k' row' hk hk' hn
    have h₁ := (hr.rows_some hk).2
    have h₂ := (hr.rows_some hk').2
    rw [hn] at h₁
    exact hr.sane.inj h₁ h₂

theorem liveByKey_get (hr : Recounts h s) (k : String) : h.liveByKey.get k = h.byKey.get k := by
  ext row
  rw [AppendHistory.liveByKey, Table.get_reindex]
  · constructor
    · rintro ⟨n, hn, rfl⟩
      obtain ⟨hview, rfl⟩ := hr.live_get.mp hn
      rw [hr.rows, hview]
      rfl
    · intro hk
      obtain ⟨rfl, hview⟩ := hr.rows_some hk
      exact ⟨row.sequence, hr.live_get.mpr ⟨hview, rfl⟩, rfl⟩
  · intro n row n' row' hn hn' hkey
    have h₁ := (hr.live_get.mp hn).1
    have h₂ := (hr.live_get.mp hn').1
    rw [hkey, h₂] at h₁
    exact (congrArg Prod.fst (Option.some.inj h₁)).symm

theorem push (hr : Recounts h s) (k v : String) :
    Recounts ⟨h.head + 1, h.events ++ [⟨k, h.head + 1, v⟩]⟩ (s.bump k v) where
  head := by rw [hr.head]; rfl
  rows := by
    intro k'
    have hby : (⟨h.head + 1, h.events ++ [⟨k, h.head + 1, v⟩]⟩ : AppendHistory).byKey =
        h.byKey.insert k ⟨k, h.head + 1, v⟩ := by
      simp [AppendHistory.byKey]
    rw [hby, Table.get_insert]
    split_ifs with hk
    · rw [hk, Cas.State.bump_view_self, hr.head]
      rfl
    · rw [Cas.State.bump_view_of_ne _ _ hk, hr.rows]
  sane := hr.sane.bump k v

/-- The row a conflict of the abstract batch is answered with. -/
def historyConflict (c : String × Option (ℕ × String)) : ConflictRow :=
  c.2.elim ⟨c.1, 0, none⟩ (fun r => ⟨c.1, r.1, some r.2⟩)

/-- **A batch of the history is the abstract batch.** -/
theorem apply (hr : Recounts h s) (writes : List Write) :
    Recounts (h.apply writes).1 (Cas.batch s writes).state ∧
      (h.apply writes).2 = ⟨(Cas.batch s writes).state.head, (Cas.batch s writes).applied,
        (Cas.batch s writes).conflicts.map historyConflict⟩ := by
  induction writes using List.reverseRecOn with
  | nil =>
    refine ⟨hr, ?_⟩
    simp only [AppendHistory.apply, List.foldl_nil, Cas.batch, List.map_nil, hr.head]
  | append_singleton taken w ih =>
    have hrow : h.liveByKey.get w.key = (s.view w.key).map (fun r => ⟨w.key, r.1, r.2⟩) := by
      rw [hr.liveByKey_get, hr.rows]
    have hseq : ((h.liveByKey.get w.key).map CurrentRow.sequence).getD 0 = s.view.seq w.key := by
      rw [hrow, Cas.View.seq]
      cases s.view w.key <;> rfl
    have hstep : h.apply (taken ++ [w]) = AppendHistory.applyWrite h.liveByKey (h.apply taken) w := by
      simp [AppendHistory.apply]
    rw [hstep, Cas.batch_append_singleton, Cas.write]
    obtain ⟨hrec, hres⟩ := ih
    generalize h.apply taken = acc at hrec hres ⊢
    obtain ⟨h', r⟩ := acc
    subst hres
    by_cases hbase : s.view.seq w.key ≠ w.base
    · simp only [AppendHistory.applyWrite, hseq, if_pos hbase]
      refine ⟨hrec, ?_⟩
      rw [hrow, List.map_append]
      cases hv : s.view w.key <;> rfl
    · simp only [AppendHistory.applyWrite, hseq, if_neg hbase]
      refine ⟨hrec.push w.key w.value, ?_⟩
      rw [hrec.head]
      rfl

end Recounts

/-! ## Pages -/

/-- What a stored row is read back as. -/
def CurrentRow.stored (row : CurrentRow) : StoredRow := ⟨row.sequence, row.fragment⟩

/-- The two page loops cut canonical rows at the same place. -/
theorem pageFromFragments_eq (codec : FragmentCodec) (limit : ℕ) (rows : List CurrentRow) (count pageBytes : ℕ) :
    ∃ entries, pageFromFragments codec limit count pageBytes
        (rows.map (fun row => (row.sequence, row.fragment))) =
        some (entries, (rangeLoop limit count pageBytes (rows.map (fun row => (row.sequence, row.fragment)))).2) ∧
      (rangeLoop limit count pageBytes (rows.map (fun row => (row.sequence, row.fragment)))).1 =
        entries.map CurrentRow.stored := by
  induction rows generalizing count pageBytes with
  | nil => exact ⟨[], rfl, rfl⟩
  | cons row rows ih =>
    rw [List.map_cons, pageFromFragments, rangeLoop]
    by_cases hcount : count < limit
    · simp only [if_pos hcount]
      by_cases hfull : count ≠ 0 ∧ PAGE_BYTES < pageBytes + (bytes row.fragment + (if count = 0 then 0 else 1))
      · rw [if_pos hfull, if_pos hfull]
        exact ⟨[], rfl, rfl⟩
      · rw [if_neg hfull, if_neg hfull]
        obtain ⟨entries, hpage, hrange⟩ :=
          ih (count + 1) (pageBytes + (bytes row.fragment + (if count = 0 then 0 else 1)))
        have hdecode : codec.decode row.fragment = some (row.key, row.sequence, row.value) :=
          codec.decode_rowFragment _ _ _
        refine ⟨row :: entries, ?_, ?_⟩
        · rw [hdecode, hpage]
          simp
        · rw [hrange]
          rfl
    · rw [if_neg hcount, if_neg hcount]
      exact ⟨[], rfl, rfl⟩

variable {db : Db} {h : AppendHistory} {s : Cas.State String String}

/-- The store's sequence index is the history's live rows, as fragments. -/
theorem sequence_eq_live (hdb : Holds db s) (hh : Recounts h s) :
    db.sequence = h.live.map (fun _ row => row.fragment) := by
  apply Table.ext_get
  intro n
  ext f
  rw [hdb.index.rows, Table.get_map, Option.map_eq_some_iff]
  constructor
  · rintro ⟨k, v, hk, rfl⟩
    exact ⟨⟨k, n, v⟩, hh.live_get.mpr ⟨hk, rfl⟩, rfl⟩
  · rintro ⟨row, hrow, rfl⟩
    obtain ⟨hview, hn⟩ := hh.live_get.mp hrow
    exact ⟨row.key, row.value, hview, by rw [← hn]; rfl⟩

theorem above_eq_live (hdb : Holds db s) (hh : Recounts h s) (since : ℕ) :
    db.sequence.above since = ((h.live.entries.map Prod.snd).filter (fun row => since < row.sequence)).map
      (fun row => (row.sequence, row.fragment)) := by
  have hseq : ∀ e ∈ h.live.entries, e.2.sequence = e.1 := fun e he =>
    (hh.live_get.mp (Table.get_eq_some.mpr he)).2
  rw [sequence_eq_live hdb hh, Table.above, Table.map]
  simp only [List.filter_map, List.map_map]
  have hfilter : h.live.entries.filter ((fun e => decide (since < e.1)) ∘ fun e => (e.1, e.2.fragment)) =
      h.live.entries.filter ((fun row => decide (since < row.sequence)) ∘ Prod.snd) :=
    List.filter_congr fun e he => by simp [hseq e he]
  rw [hfilter]
  refine List.map_congr_left fun e he => ?_
  simp [hseq e (List.mem_of_mem_filter he)]

/-- **A page of the store is the history's page** at the store's limit. -/
theorem range_eq_page (hdb : Holds db s) (hh : Recounts h s) {generation : String}
    (hgen : db.generation = some generation) (since limit : ℕ) :
    ∃ page entries, range db since limit = .ok page ∧
      h.page codec since (min limit MAX_LIMIT) = some ⟨entries, page.head, page.more⟩ ∧
      page.entries = entries.map CurrentRow.stored := by
  obtain ⟨entries, hpage, hrange⟩ := pageFromFragments_eq codec (min limit MAX_LIMIT)
    ((h.live.entries.map Prod.snd).filter (fun row => since < row.sequence)) 0 128
  have hprotocol : readProtocol db =
      .ok ⟨s.head, db.wireMin.getD 2, generation, db.migrationGeneration.getD 0⟩ := by
    simp only [readProtocol, hdb.head, hgen]
  rw [← above_eq_live hdb hh] at hrange hpage
  refine ⟨⟨_, _, s.head, _⟩, entries, by rw [range, hprotocol]; rfl, ?_, hrange⟩
  rw [AppendHistory.page, ← above_eq_live hdb hh, hpage, hh.head]
  rfl

/-! ## Runs of batches -/

/-- One batch as the store is asked for it. -/
structure BatchCall where
  writes : List Write
  liveCap : ℕ
  wireMin : ℕ
  tier : VisitorTier
  authority : WriteAuthority

/-- The batches of a run, none refused. -/
def applyAll (db : Db) : List BatchCall → Except StoreError (Db × List BatchResult)
  | [] => .ok (db, [])
  | call :: calls => do
    let (db, r) ← applyTiered db call.writes call.liveCap call.wireMin call.tier call.authority
    let (db, rs) ← applyAll db calls
    .ok (db, r :: rs)

def AppendHistory.applyAll (h : AppendHistory) : List (List Write) → AppendHistory × List HistoryResult
  | [] => (h, [])
  | writes :: batches =>
    let (h, r) := h.apply writes
    let (h, rs) := h.applyAll batches
    (h, r :: rs)

/-- A conflict with its row read back from its fragment. -/
def readConflict (c : Conflict) : Option ConflictRow :=
  match c.current with
  | none => some ⟨c.key, 0, none⟩
  | some row => (codec.decode row.fragment).map (fun r => ⟨r.1, r.2.1, some r.2.2⟩)

/-- A batch's answer with its conflicts read back. -/
def readResult (r : BatchResult) : Option HistoryResult :=
  (r.conflicts.mapM (readConflict codec)).map (fun conflicts => ⟨r.head, r.applied, conflicts⟩)

theorem readConflict_conflictOf (c : String × Option (ℕ × String)) :
    readConflict codec (conflictOf c) = some (Recounts.historyConflict c) := by
  obtain ⟨k, r | ⟨n, v⟩⟩ := c
  · rfl
  · simp [readConflict, conflictOf, codec.decode_rowFragment, Recounts.historyConflict]

theorem mapM_conflictOf (cs : List (String × Option (ℕ × String))) :
    (cs.map conflictOf).mapM (readConflict codec) = some (cs.map Recounts.historyConflict) := by
  induction cs with
  | nil => rfl
  | cons c cs ih => simp [readConflict_conflictOf, ih]

/-- A run of batches and the same run of the history end in the same abstract state, with the same answers. -/
theorem applyAll_recounts {calls : List BatchCall} {db' : Db} {rs : List BatchResult}
    (hdb : Holds db s) (hh : Recounts h s) (hok : applyAll db calls = .ok (db', rs)) :
    ∃ s', Holds db' s' ∧ Recounts (h.applyAll (calls.map BatchCall.writes)).1 s' ∧
      db'.generation = db.generation ∧
      rs.mapM (readResult codec) = some (h.applyAll (calls.map BatchCall.writes)).2 := by
  induction calls generalizing db h s rs with
  | nil =>
    cases hok
    exact ⟨s, hdb, hh, rfl, rfl⟩
  | cons call calls ih =>
    rw [applyAll] at hok
    obtain ⟨⟨db₁, r⟩, hfirst, hok⟩ := Except.bind_ok.mp hok
    obtain ⟨⟨db₂, rs'⟩, hrest, hok⟩ := Except.bind_ok.mp hok
    cases hok
    obtain ⟨hdb₁, hhead, happlied, hconflicts⟩ := hdb.applyTiered hfirst
    obtain ⟨hh₁, hres⟩ := hh.apply call.writes
    obtain ⟨s', hdb', hh', hgen, hrs⟩ := ih hdb₁ hh₁ hrest
    obtain ⟨_, _, _, _, -, -, -, -, hsame, -⟩ := applyTiered_ok hfirst
    refine ⟨s', hdb', hh', by rw [hgen, hsame]; rfl, ?_⟩
    have hread : readResult codec r = some (h.apply call.writes).2 := by
      rw [readResult, hconflicts, mapM_conflictOf, hhead, happlied, hres]
      rfl
    simp [hread, hrs, AppendHistory.applyAll]

end DenEdge
