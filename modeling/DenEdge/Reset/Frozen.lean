import DenEdge.Reset.Events
import DenEdge.Reset.Retirement
import DenEdge.Store.Frozen

/-!
# The fence of a lock

A lock records the migration generation, the head and the digest of the rows it was acquired on. While it is live
its library is written by nobody, so what it recorded is what the library still holds, to its retirement.

* `locked_library_frozen`: a locked library is frozen, in its store and in the resets that lock it.
-/

namespace DenEdge.Reset

/-- **A locked library is frozen.** In its store: from the exclusive commit that sets the lock at a source until
one that clears it, its rows and its protocol are those the commit found, at that source; a mutation is refused
without effect, as locked unless it is refused before the lock is looked at; and the operation that clears the
lock changes neither. In the resets that lock it: a library that is retired under a reset is, in migration
generation, head and digest of its rows, what the fence of its lock recorded. -/
theorem locked_library_frozen (codec : FragmentCodec) (hex : Hash → String) :
    (∀ (s : Shelf) (es es' : List ShelfEvent) (edit : ExclusiveEdit) (attempt : String) (source : ℕ × ℕ)
      (e : ShelfEvent), s.Start → Run.Meets (fun s e => (s.step codec e).1) Shelf.Fresh s es →
      (s.run codec es).handle.isSome → edit.lock = .set attempt → edit.expectSource = some source →
      ((s.run codec es).step codec (.exclusive edit)).2 = .ok false →
      Run.Meets (fun s e => (s.step codec e).1) (Shelf.KeepsLock codec)
        ((s.run codec es).step codec (.exclusive edit)).1 es' →
      e.isRestore = false →
      ∃ db db' db'', (s.run codec es).file = some db ∧
        (((s.run codec es).step codec (.exclusive edit)).1.run codec es').file = some db' ∧
        ((((s.run codec es).step codec (.exclusive edit)).1.run codec es').step codec e).1.file = some db'' ∧
        Frozen db db' ∧ Frozen db db'' ∧ (db'.migrationGeneration.getD 0, db'.head.getD 0) = source ∧
        (e.isMutation = true → (((s.run codec es).step codec (.exclusive edit)).1.run codec es').handle.isSome →
          ((((s.run codec es).step codec (.exclusive edit)).1.run codec es').step codec e).2 =
              .error (e.refusedUnread.getD .locked) ∧ db'' = db')) ∧
    ∀ (es : List Event) (r : RetireRequest) (v : Vault) (m : Marker),
      (Run.exec (Server.step hex) Server.empty es).libs r.id = .stored v →
      ((Run.exec (Server.step hex) Server.empty es).step hex (.retire r)).libs r.id = .moved m →
      ∃ record, v.reset = some record ∧ m = retiredMarker r record ∧ v.fence = record.fence := by
  refine ⟨?_, ?_⟩
  · intro s es es' edit attempt source e hs hes hopen hset hsource hok hes' he
    have ht := Shelf.run_shelfOK codec (Shelf.start_shelfOK hs) hes
    generalize s.run codec es = t at ht hopen hok hes'
    obtain ⟨db, p, hfile, hdb, hp, hindex⟩ := ht.agrees hopen
    obtain ⟨file, index, handle, copies, drawn⟩ := t
    subst hfile hindex
    obtain ⟨handle, rfl⟩ := Option.isSome_iff_exists.mp hopen
    -- the commit that sets the lock
    cases hcommit : exclusiveCommit db edit with
    | error =>
      simp only [Shelf.step, Shelf.act, hcommit] at hok
      cases hok
    | ok db₁ =>
      obtain ⟨heq, hexpected⟩ := exclusiveCommit_ok hcommit
      have hstep : (Shelf.step codec ⟨some db, some (IndexedProtocol.of p), some handle, copies, drawn⟩
          (.exclusive edit)).1 = ⟨some db₁, some (IndexedProtocol.of p), some handle, db₁ :: copies,
            [] ++ drawn⟩ := by
        simp only [Shelf.step, Shelf.act, hcommit]
        rfl
      rw [hstep] at hes' ⊢
      have hlock : db₁.lock = some attempt := by
        rw [heq, hset]
        rfl
      have hfrozen : Frozen db db₁ := by
        rw [heq]
        exact ⟨rfl, rfl⟩
      have hat :
          Shelf.FrozenAt db p ⟨some db₁, some (IndexedProtocol.of p), some handle, db₁ :: copies, [] ++ drawn⟩ :=
        ⟨⟨db₁, rfl, exclusiveCommit_packed hdb hcommit, hfrozen⟩, hp, rfl⟩
      obtain ⟨hrun, hlocked⟩ := Shelf.run_frozen hat (by rw [Shelf.lock, Option.bind_some, hlock]; rfl) hes'
      obtain ⟨hnext, hrefused⟩ := Shelf.step_frozen codec hrun hlocked he
      obtain ⟨⟨db', hfile', -, hfrozen'⟩, -, -⟩ := hrun
      obtain ⟨⟨db'', hfile'', -, hfrozen''⟩, -, -⟩ := hnext
      refine ⟨db, db', db'', rfl, hfile', hfile'', hfrozen', hfrozen'', ?_, ?_⟩
      · -- the fence the commit expected is the protocol that is kept
        obtain ⟨hhead, -, -, hmig⟩ := readProtocol_ok hp
        obtain ⟨hhead', -, -, hmig'⟩ := readProtocol_ok (hfrozen'.protocol.trans hp)
        rw [← hexpected source hsource, ← hmig, ← hmig', hhead, hhead']
      · intro hmutation hopen'
        obtain ⟨hanswer, hsame⟩ := hrefused hmutation hopen'
        rw [hfile', hfile''] at hsame
        exact ⟨hanswer, Option.some.inj hsame⟩
  · intro es r v m hv hm
    obtain ⟨record, hreset, hlive, hmarker⟩ := retire_record (run_serverOK hex es).libs hv hm
    exact ⟨record, hreset, hmarker, (((run_serverOK hex es).libs.vaults _ _ hv).fence record hreset hlive).symm⟩

/-- The commit that locks a library at a source. -/
def sampleLock (source : ℕ × ℕ) : ExclusiveEdit := ⟨.absent, some source, [], .set "attempt", [], []⟩

/-- A batch whose key is not an id is refused for that, locked or not. -/
theorem malformed_batch_not_locked :
    (Shelf.sampleShelf.run canonicalCodec [.library 1 "a" "b", .exclusive (sampleLock (0, 0))]).lock =
      some "attempt" ∧
    ((Shelf.sampleShelf.run canonicalCodec [.library 1 "a" "b", .exclusive (sampleLock (0, 0))]).step
      canonicalCodec (.apply [⟨"no id", 0, "v"⟩] 1000 2 sampleTier ⟨none, none⟩)).2 =
        .error (.invalid "invalid or duplicate v3 write") := by
  decide +kernel

/-- The reset of `sampleReset` up to its last request. -/
def sampleBefore : List Event := sampleReset.take 7

def sampleRetire : RetireRequest := ⟨profileId, 1, some 4, attemptA, newProfileId, "g", false⟩

/-- A library with a row, locked: after a restart a write is refused as locked and the row is as it was. And a
library that its reset retires is at the fence of its lock. -/
theorem locked_library_frozen_sample :
    (let s := Shelf.sampleShelf.run canonicalCodec [.library 1 "a" "b", Shelf.sampleWrite]
     let s' := ((s.step canonicalCodec (.exclusive (sampleLock (1, 1)))).1).run canonicalCodec
      [.restart, .library 1 "c" "d"]
     ∃ db db' db'', s.file = some db ∧ s'.file = some db' ∧
      (s'.step canonicalCodec Shelf.sampleWrite).1.file = some db'' ∧
      db.keys.len = 1 ∧ Frozen db db' ∧ Frozen db db'' ∧
      (s'.step canonicalCodec Shelf.sampleWrite).2 = .error .locked) ∧
    ∃ v record, (Run.exec (Server.step showHash) Server.empty sampleBefore).libs profileId = .stored v ∧
      v.reset = some record ∧ v.fence = record.fence := by
  obtain ⟨hstore, hreset⟩ := locked_library_frozen canonicalCodec showHash
  refine ⟨?_, ?_⟩
  · obtain ⟨db, db', db'', hfile, hfile', hfile'', hfrozen, hfrozen', -, hrefused⟩ :=
      hstore Shelf.sampleShelf [.library 1 "a" "b", Shelf.sampleWrite] [.restart, .library 1 "c" "d"]
        (sampleLock (1, 1))
        "attempt" (1, 1) Shelf.sampleWrite Shelf.sampleShelf_start (by decide +kernel) (by decide +kernel) rfl rfl
        (by decide +kernel) (by decide +kernel) rfl
    have hlen : (Shelf.sampleShelf.run canonicalCodec [.library 1 "a" "b", Shelf.sampleWrite]).file.map
        (fun db => db.keys.len) = some 1 := by decide +kernel
    rw [hfile] at hlen
    exact ⟨db, db', db'', hfile, hfile', hfile'', Option.some.inj hlen, hfrozen, hfrozen',
      (hrefused rfl (by decide +kernel)).1⟩
  · have hsome : ((Run.exec (Server.step showHash) Server.empty sampleBefore).libs profileId).vault.isSome := by
      decide +kernel
    have hretired : (((Run.exec (Server.step showHash) Server.empty sampleBefore).step showHash
        (.retire sampleRetire)).libs profileId).marker = some (.exclusive newProfileId sampleTombstone) := by
      decide +kernel
    obtain ⟨v, hv⟩ := Option.isSome_iff_exists.mp hsome
    have hv := Library.vault_eq_some hv
    obtain ⟨record, hrecord, -, hfence⟩ := hreset sampleBefore sampleRetire v _ hv (marker_eq_some hretired)
    exact ⟨v, record, hv, hrecord, hfence⟩

end DenEdge.Reset
