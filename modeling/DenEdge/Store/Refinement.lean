import DenEdge.Store.Progress

/-!
# The store refines the append history

A run of batches from a new library is refused for what one of its batches is, or answered as the append history
answers it; after it every page is the history's, cut at the store's own limit of rows (`store_refines_history`).
The limit is the one difference: it shows on a library of more rows than a page has (`range_cuts_at_max_limit`).
-/

namespace DenEdge

/-- The batches of a run are applied, or one of them is refused for what it is. -/
theorem applyAll_refusal {calls : List BatchCall} {db : Db} {s : Cas.State String String} (h : Counted db s)
    (hseq : s.head + (calls.flatMap BatchCall.writes).length ≤ MAX_SEQUENCE) :
    (applyAll db calls).Ends Refusal fun _ => True := by
  induction calls generalizing db s with
  | nil => trivial
  | cons call calls ih =>
    rw [List.flatMap_cons, List.length_append] at hseq
    refine (h.applyTiered call.liveCap call.tier (by omega)).bind fun p hp => ?_
    refine (ih hp ?_).bind fun _ _ => trivial
    -- a batch takes no more sequences than it has writes
    have hhead := Cas.batch_applied_length_le s call.writes
    rw [Cas.batch_head]
    omega

/-- **The store refines the append history.** Every run of batches from a new library, none refused, is answered
as the history answers it, and every page is the history's page at the store's own limit. A run that fits the
sequences fails only by a refusal of one of its batches. -/
theorem store_refines_history (codec : FragmentCodec) (token : Hash) (member : Option Hash) (generation : String)
    (calls : List BatchCall) :
    (∀ db' rs, applyAll (freshDb token member generation) calls = .ok (db', rs) →
      rs.mapM (readResult codec) = some (AppendHistory.init.applyAll (calls.map BatchCall.writes)).2 ∧
      ∀ since limit, ∃ page entries, range db' since limit = .ok page ∧
        (AppendHistory.init.applyAll (calls.map BatchCall.writes)).1.page codec since (min limit MAX_LIMIT) =
          some ⟨entries, page.head, page.more⟩ ∧
        page.entries = entries.map CurrentRow.stored) ∧
    ((calls.flatMap BatchCall.writes).length ≤ MAX_SEQUENCE →
      ∀ e, applyAll (freshDb token member generation) calls = .error e → Refusal e) := by
  refine ⟨fun db' rs hok => ?_, fun hseq e herror => ?_⟩
  · obtain ⟨s', hdb', hh', hgen, hrs⟩ :=
      applyAll_recounts codec (freshDb_holds token member generation) recounts_init hok
    exact ⟨hrs, fun since limit => range_eq_page codec hdb' hh' hgen since limit⟩
  · have hends : (applyAll (freshDb token member generation) calls).Ends Refusal fun _ => True :=
      applyAll_refusal (freshDb_counted token member generation) ((Nat.zero_add _).trans_le hseq)
    rwa [herror] at hends

/-- A key written, written again from the same base, and replaced. -/
def sampleCalls : List BatchCall :=
  [0, 0, 1].map fun base => ⟨[⟨sampleKey, base, "v"⟩], 1000, 2, sampleTier, ⟨none, none⟩⟩

theorem store_refines_history_sample : ∃ db' rs, applyAll (freshDb 1 none "g") sampleCalls = .ok (db', rs) ∧
    rs.mapM (readResult canonicalCodec) =
      some (AppendHistory.init.applyAll (sampleCalls.map BatchCall.writes)).2 := by
  have hsome : (applyAll (freshDb 1 none "g") sampleCalls).toOption.isSome = true := by decide +kernel
  cases hok : applyAll (freshDb 1 none "g") sampleCalls with
  | error e =>
    rw [hok] at hsome
    cases hsome
  | ok p => exact ⟨p.1, p.2, rfl, ((store_refines_history canonicalCodec 1 none "g" _).1 p.1 p.2 hok).1⟩

/-! ## A library of more rows than a page has -/

/-- Keys of different numbers of `a` and `b`. -/
def bulkKey (n : ℕ) : String := String.ofList (List.replicate (16 + n / 32) 'a' ++ List.replicate (n % 32) 'b')

variable {m n : ℕ} {db : Db}

theorem bulkKey_inj (h : bulkKey m = bulkKey n) : m = n := by
  have hl := congrArg String.toList h
  simp only [bulkKey, String.toList_ofList] at hl
  have ha := congrArg (List.count 'a') hl
  have hb := congrArg (List.count 'b') hl
  simp [List.count_append, List.count_replicate] at ha hb
  omega

theorem mem_bulkKey {c : Char} (h : c ∈ (bulkKey n).toList) : c = 'a' ∨ c = 'b' := by
  rw [bulkKey, String.toList_ofList] at h
  exact (List.mem_append.mp h).imp List.eq_of_mem_replicate List.eq_of_mem_replicate

theorem utf8Len_replicate {c : Char} (h : c.utf8Size = 1) (n : ℕ) : String.utf8Len (List.replicate n c) = n := by
  induction n with
  | zero => rfl
  | succ n ih => rw [List.replicate_succ, String.utf8Len_cons, ih, h]

theorem utf8Len_bulkKey (n : ℕ) : String.utf8Len (bulkKey n).toList = 16 + n / 32 + n % 32 := by
  rw [bulkKey, String.toList_ofList, String.utf8Len_append, utf8Len_replicate rfl, utf8Len_replicate rfl]

theorem bytes_bulkKey (n : ℕ) : bytes (bulkKey n) = 16 + n / 32 + n % 32 := by
  rw [← utf8Len_bulkKey, bytes, ← String.utf8ByteSize_ofList, String.ofList_toList]

theorem bulkKey_valid (h : n < 1024) : validHexId (bulkKey n) = true := by
  simp only [validHexId, Bool.and_eq_true, decide_eq_true_eq, bytes_bulkKey]
  refine ⟨⟨by omega, by omega⟩, List.all_eq_true.mpr fun c hc => ?_⟩
  rcases mem_bulkKey hc with rfl | rfl <;> decide

theorem bytes_bulkRow (hm : m < 1024) (hn : n < 1024) : bytes (rowFragment m (bulkKey n) "") < 128 := by
  have hdigits : ∀ m < 1024, String.utf8Len (Json.number m) ≤ 4 := by decide +kernel
  have hplain : (bulkKey n).toList.flatMap Json.escapeChar = (bulkKey n).toList := by
    rw [← List.flatMap_singleton' (bulkKey n).toList]
    simp only [List.flatMap_assoc]
    refine List.flatMap_congr fun c hc => ?_
    rcases mem_bulkKey hc with rfl | rfl <;> rfl
  have hnum := hdigits m hm
  simp only [bytes, rowFragment, String.utf8ByteSize_ofList, String.utf8Len_append, Json.quote,
    String.utf8Len_cons, hplain, utf8Len_bulkKey]
  have htexts : String.utf8Len memberK = 5 ∧ String.utf8Len memberSeq = 7 ∧ String.utf8Len memberV = 5 ∧
      String.utf8Len closing = 1 ∧ String.utf8Len [] = 0 ∧
      String.utf8Len ("".toList.flatMap Json.escapeChar) = 0 ∧ ('"').utf8Size = 1 :=
        ⟨rfl, rfl, rfl, rfl, rfl, rfl, rfl⟩
  omega

/-- The first keys, bound in order. -/
def bulkState : ℕ → Cas.State String String
  | 0 => .bare 0
  | n + 1 => (bulkState n).bump (bulkKey n) ""

theorem bulkState_head (n : ℕ) : (bulkState n).head = n := by
  induction n with
  | zero => rfl
  | succ n ih => rw [bulkState, Cas.State.bump_head, ih]

theorem bulkState_view {k : String} {r : ℕ × String} :
    (bulkState n).view k = some r ↔ ∃ j < n, k = bulkKey j ∧ r = (j + 1, "") := by
  induction n with
  | zero => simp [bulkState, Cas.State.bare]
  | succ n ih =>
    rw [bulkState]
    rcases eq_or_ne k (bulkKey n) with rfl | hne
    · rw [Cas.State.bump_view_self, bulkState_head, Option.some.injEq]
      constructor
      · rintro rfl
        exact ⟨n, Nat.lt_succ_self n, rfl, rfl⟩
      · rintro ⟨j, -, hj, rfl⟩
        rw [bulkKey_inj hj]
    · rw [Cas.State.bump_view_of_ne _ _ hne, ih]
      constructor
      · rintro ⟨j, hj, hk⟩
        exact ⟨j, by omega, hk⟩
      · rintro ⟨j, hj, rfl, hr⟩
        exact ⟨j, lt_of_le_of_ne (Nat.le_of_lt_succ hj) fun h => hne (h ▸ rfl), rfl, hr⟩

/-- The batch that writes one more key. -/
def bulkCall (n : ℕ) : BatchCall := ⟨[⟨bulkKey n, 0, ""⟩], 1000000, 2, ⟨false, 0, 0⟩, ⟨none, none⟩⟩

/-- How the library stands after some of the batches. -/
structure BulkOK (n : ℕ) (db : Db) : Prop where
  holds : Holds db (bulkState n)
  lock : db.lock = none
  generation : db.generation = some "g"
  wireMin : db.wireMin = some 2
  visitor : db.visitor = none
  migration : db.migrationGeneration.getD 0 ≤ n
  charged : db.toIndex.charged ≤ n * 78
  rows : db.keys.len ≤ n

theorem bulkOK_step (hn : n < 1024) (h : BulkOK n db) :
    ∃ db' r, applyTiered db (bulkCall n).writes 1000000 2 ⟨false, 0, 0⟩ ⟨none, none⟩ = .ok (db', r) ∧
      BulkOK (n + 1) db' := by
  have hhead : db.head = some n := by rw [h.holds.head, bulkState_head]
  have hmin : effectiveMin n 2 2 = 2 := by simp [effectiveMin]
  have hchecks : batchChecks db (bulkCall n).writes 2 ⟨none, none⟩ = .ok ⟨"g", n, 2, 2⟩ := by
    simp [batchChecks, bulkCall, h.lock, h.generation, hhead, h.wireMin, hmin, validKeys,
      bulkKey_valid hn, valueFits, MAX_WRITES]
  have hcaps : caps db n 1000000 ⟨false, 0, 0⟩ = (1000000, MAX_ROWS) := by simp [caps, h.visitor]
  have hland : (landing (bulkState n) (bulkCall n).writes).length ≤ 1 := landing_length_le _ _
  have hwritten : writtenBytes (landing (bulkState n) (bulkCall n).writes) ≤ 78 := by
    refine (writtenBytes_landing_le _ _).trans ?_
    have hempty : bytes "" = 0 := rfl
    simp only [writtenBytes, bulkCall, List.map_cons, List.map_nil, List.sum_cons, List.sum_nil, storedCharge,
      bytes_bulkKey]
    omega
  obtain ⟨hmigration, hcharged, hrows⟩ := And.intro h.migration (And.intro h.charged h.rows)
  have hmax : 1024 ≤ MAX_SEQUENCE ∧ 1024 < MAX_SAFE_INTEGER ∧ 1024 ≤ MAX_ROWS := by decide
  obtain ⟨db', r, hok, hcharged', hrows', -⟩ := applyTiered_succeeds 1000000 ⟨false, 0, 0⟩ h.holds hchecks
    (by rw [bulkState_head]; omega) (by rw [hcaps]; decide) (by rw [hcaps]; show _ ≤ 1000000; omega)
    (by rw [hcaps]; show _ ≤ MAX_ROWS; omega) (by omega)
  refine ⟨db', r, hok, ?_⟩
  have hholds := (h.holds.applyTiered hok).1
  have hbatch : (Cas.batch (bulkState n) (bulkCall n).writes).state = bulkState (n + 1) := by
    have hnone : (bulkState n).view (bulkKey n) = none := by
      rw [Option.eq_none_iff_forall_ne_some]
      intro r hr
      obtain ⟨j, hj, hk, -⟩ := bulkState_view.mp hr
      exact hj.ne' (bulkKey_inj hk)
    simp [Cas.batch, bulkCall, Cas.write, Cas.View.seq, hnone, bulkState]
  rw [hbatch] at hholds
  obtain ⟨a, pass, index, migration, ha, -, -, hmig, rfl, -⟩ := applyTiered_ok hok
  cases hchecks.symm.trans ha
  refine ⟨hholds, h.lock, h.generation, ?_, by simp [batchCommit, h.visitor], ?_, by omega, by omega⟩
  · simp only [batchCommit, h.wireMin]
    split <;> rfl
  · simp only [batchCommit]
    split
    · omega
    · rename_i haccepted
      rw [batchMigration, if_neg haccepted, nextMigration] at hmig
      split at hmig <;> cases hmig
      simp only [Option.getD_some]
      omega

theorem applyAll_append_singleton {db' db'' : Db} {calls : List BatchCall} {rs : List BatchResult}
    {call : BatchCall} {r : BatchResult} (h : applyAll db calls = .ok (db', rs))
    (hcall : applyTiered db' call.writes call.liveCap call.wireMin call.tier call.authority = .ok (db'', r)) :
    applyAll db (calls ++ [call]) = .ok (db'', rs ++ [r]) := by
  induction calls generalizing db rs with
  | nil =>
    cases h
    simp [applyAll, hcall]
  | cons c calls ih =>
    rw [applyAll] at h
    obtain ⟨⟨db₁, r₁⟩, hfirst, h⟩ := Except.bind_ok.mp h
    obtain ⟨⟨db₂, rs₁⟩, hrest, h⟩ := Except.bind_ok.mp h
    cases h
    rw [List.cons_append, applyAll, hfirst]
    simp [ih hrest]

theorem bulkOK_run (hn : n ≤ 1001) :
    ∃ db rs, applyAll (freshDb 0 none "g") ((List.range n).map bulkCall) = .ok (db, rs) ∧ BulkOK n db := by
  induction n with
  | zero => exact ⟨_, [], rfl, freshDb_holds _ _ _, rfl, rfl, rfl, rfl, le_refl _, le_refl _, le_refl _⟩
  | succ n ih =>
    obtain ⟨db, rs, hrun, hok⟩ := ih (by omega)
    obtain ⟨db', r, hcall, hok'⟩ := bulkOK_step (by omega) hok
    refine ⟨db', rs ++ [r], ?_, hok'⟩
    rw [List.range_succ, List.map_append]
    exact applyAll_append_singleton hrun hcall

/-- The rows of the large library: no fewer than the sequences it gave, all of them short. -/
theorem bulk_above (h : BulkOK 1001 db) :
    1001 ≤ (db.sequence.above 0).length ∧ ∀ e ∈ db.sequence.above 0, bytes e.2 < 128 := by
  constructor
  · have hsub : List.range' 1 1001 ⊆ (db.sequence.above 0).map Prod.fst := by
      intro n hn
      rw [List.mem_range'_1] at hn
      have hview : (bulkState 1001).view (bulkKey (n - 1)) = some (n, "") :=
        bulkState_view.mpr ⟨n - 1, by omega, rfl, by rw [Nat.sub_add_cancel hn.1]⟩
      exact List.mem_map.mpr ⟨(n, _), Table.mem_above.mpr ⟨h.holds.index.sequence_of hview, hn.1⟩, rfl⟩
    simpa using (List.subperm_of_subset List.nodup_range' hsub).length_le
  · intro e he
    obtain ⟨k, v, hk, hf⟩ := (h.holds.index.rows e.1 e.2).mp (Table.mem_above.mp he).1
    obtain ⟨j, hj, rfl, hr⟩ := bulkState_view.mp hk
    rw [hf, (Prod.mk.inj hr).1, (Prod.mk.inj hr).2]
    exact bytes_bulkRow (by omega) (by omega)

/-- The store's page stops at a thousand rows where the history's, asked for one more, does not. -/
theorem range_cuts_at_max_limit :
    ∃ calls db rs page historyPage, applyAll (freshDb 0 none "g") calls = .ok (db, rs) ∧
      range db 0 1001 = .ok page ∧
      (AppendHistory.init.applyAll (calls.map BatchCall.writes)).1.page canonicalCodec 0 1001 = some historyPage ∧
      page.entries.length = 1000 ∧ historyPage.entries.length = 1001 := by
  obtain ⟨db, rs, hrun, hbulk⟩ := bulkOK_run (le_refl 1001)
  obtain ⟨s, hdb, hh, -, -⟩ := applyAll_recounts canonicalCodec (freshDb_holds 0 none "g") recounts_init hrun
  obtain ⟨hlength, hshort⟩ := bulk_above hbulk
  have hcut : ∀ limit ≤ 1001, (rangeLoop limit 0 128 (db.sequence.above 0)).1.length = limit := by
    intro limit hle
    have hfits : 128 + 1001 * 128 ≤ PAGE_BYTES := by decide
    rw [rangeLoop_length hshort (by omega)]
    omega
  have hprotocol : readProtocol db = .ok ⟨s.head, db.wireMin.getD 2, "g", db.migrationGeneration.getD 0⟩ := by
    simp only [readProtocol, hdb.head, hbulk.generation]
  obtain ⟨entries, hpage, hrange⟩ := pageFromFragments_eq canonicalCodec 1001
    (((AppendHistory.init.applyAll (((List.range 1001).map bulkCall).map BatchCall.writes)).1.live.entries.map
      Prod.snd).filter (fun row => 0 < row.sequence)) 0 128
  rw [← above_eq_live hdb hh] at hpage hrange
  refine ⟨_, db, rs, _, ⟨entries, s.head, (rangeLoop 1001 0 128 (db.sequence.above 0)).2⟩, hrun,
    by rw [range, hprotocol]; rfl, ?_, hcut 1000 (by decide), ?_⟩
  · rw [AppendHistory.page, ← above_eq_live hdb hh, hpage, hh.head]
    rfl
  · have hcount := hcut 1001 (le_refl _)
    rwa [hrange, List.length_map] at hcount

end DenEdge
