import DenEdge.Store.Rep

/-!
# Every run of a library's store

One library's file, the handle the process has open on it, and every operation that may be run on them, in any
order and with a failure of redb or of the file system at any of them. A redb transaction that does not commit has
no effect, so a failed operation is one that answers an error and writes nothing. Importing a v2 log is the
exception: it replaces the file in three steps, so what a failed import leaves depends on the step.

* `Site.step`, `Site.run`: the machine.
* `SiteOK`, `step_siteOK`, `run_siteOK`: the invariant of its runs.
* `step_error`: what an operation that answers an error leaves.
-/

namespace DenEdge

/-- What an open handle keeps in memory. -/
structure Handle where
  tokenHash : Hash
  memberHash : Option Hash

/-- A database, and the handle that is open on it. -/
structure Site where
  db : Db
  handle : Option Handle

/-- Where an import fails, if it does: removing the database beside the log, building its own, or syncing the
directory once its own is in place. -/
inductive ImportFault where
  | none
  | removing (error : StoreError)
  | building (error : StoreError)
  | syncing (error : StoreError)

inductive Op where
  | openStore (token : Hash) (member : Option Hash) (fresh : String)
  | close
  | reconcile (recorded : Option IndexedProtocol) (newlyCreated : Bool) (fresh : String)
  | apply (writes : List Write) (liveCap wireMin : ℕ) (tier : VisitorTier) (authority : WriteAuthority)
  | rewrite (base : ℕ) (rows : List RewriteRow) (wireMin liveCap : ℕ) (fresh : String)
  | registerMember (member : Hash)
  | exclusive (edit : ExclusiveEdit)
  | importV2 (libraryBytes : ℕ) (token : Hash) (member : Option Hash) (lines : List Line) (fresh : String)
      (inUse : Bool) (fault : ImportFault)

/-- An operation, and the storage failure it meets before its commit, if any. -/
structure StoreEvent where
  op : Op
  fault : Option StoreError

/-- The outcome of one transaction: what it commits, or an error and nothing. -/
def Site.transact (s : Site) (fault : Option StoreError) (r : Except StoreError Db) :
    Site × Except StoreError Unit :=
  match fault, r with
  | some error, _ => (s, .error error)
  | none, .error error => (s, .error error)
  | none, .ok db => ({ s with db := db }, .ok ())

/-- Replace the file by the import of a log. A handle in use refuses it. -/
def Site.importV2 (s : Site) (lib : V2Library) (fresh : String) (inUse : Bool) (fault : ImportFault) :
    Site × Except StoreError Unit :=
  if s.handle.isSome ∧ inUse then (s, .error .full)
  else match fault, importDb lib fresh with
    | .removing error, _ => ({ s with handle := none }, .error error)
    | .building error, _ => (⟨Db.empty, none⟩, .error error)
    | _, .error error => (⟨Db.empty, none⟩, .error error)
    | .syncing error, .ok db => (⟨db, none⟩, .error error)
    | .none, .ok db => (⟨db, none⟩, .ok ())

/-- One operation. Those of an open store do nothing where none is open: there is nothing to call them on. -/
def Site.step (codec : FragmentCodec) (s : Site) (e : StoreEvent) : Site × Except StoreError Unit :=
  match e.op, s.handle with
  | .openStore token _ _, some handle => (s, if handle.tokenHash = token then .ok () else .error .forbidden)
  | .openStore token member fresh, none =>
    match e.fault, DenEdge.openStore codec s.db token member fresh with
    | some error, _ => (s, .error error)
    | none, .error error => (s, .error error)
    | none, .ok (db, cached) => (⟨db, some ⟨token, cached⟩⟩, .ok ())
  | .close, _ => ({ s with handle := none }, .ok ())
  | .importV2 libraryBytes token member lines fresh inUse fault, _ =>
    match replay libraryBytes token member lines with
    | .error why => (s, .error (.failed why))
    | .ok lib => s.importV2 lib fresh inUse fault
  | _, none => (s, .ok ())
  | .reconcile recorded newlyCreated fresh, some _ =>
    s.transact e.fault ((reconcileProtocol s.db recorded newlyCreated fresh).map Prod.fst)
  | .apply writes liveCap wireMin tier authority, some _ =>
    s.transact e.fault ((applyTiered s.db writes liveCap wireMin tier authority).map Prod.fst)
  | .rewrite base rows wireMin liveCap fresh, some _ =>
    s.transact e.fault ((DenEdge.rewrite s.db base rows wireMin liveCap fresh).map Prod.fst)
  | .exclusive edit, some _ => s.transact e.fault (exclusiveCommit s.db edit)
  | .registerMember member, some handle =>
    match e.fault, DenEdge.registerMember s.db handle.memberHash member with
    | some error, _ => (s, .error error)
    | none, .error error => (s, .error error)
    | none, .ok (db, changed) =>
      (⟨db, some (if changed then { handle with memberHash := some member } else handle)⟩, .ok ())

/-- The site after a list of operations. -/
def Site.run (codec : FragmentCodec) (s : Site) (es : List StoreEvent) : Site :=
  Run.exec (fun s e => (s.step codec e).1) s es

def Op.isImport : Op → Bool
  | .importV2 .. => true
  | _ => false

/-- The rows an import's log replays to have distinct sequences, from `1`. -/
def Op.LogDistinct : Op → Prop
  | .importV2 libraryBytes token member lines _ _ _ =>
    ∀ lib, replay libraryBytes token member lines = .ok lib → DistinctSequences lib
  | _ => True

instance (lib : V2Library) : Decidable (DistinctSequences lib) :=
  decidable_of_iff ((∀ e ∈ lib.rows.entries, 1 ≤ e.2.seq) ∧
      ∀ e ∈ lib.rows.entries, ∀ e' ∈ lib.rows.entries, e.2.seq = e'.2.seq → e.1 = e'.1)
    ⟨fun h => ⟨fun _ _ hr => h.1 _ (Table.get_eq_some.mp hr),
      fun _ _ _ _ hr hr' => h.2 _ (Table.get_eq_some.mp hr) _ (Table.get_eq_some.mp hr')⟩,
    fun h => ⟨fun _ he => h.pos _ _ (Table.get_eq_some.mpr he),
      fun _ he _ he' => h.inj _ _ _ _ (Table.get_eq_some.mpr he) (Table.get_eq_some.mpr he')⟩⟩

instance : DecidablePred Op.LogDistinct
  | .importV2 libraryBytes token member lines _ _ _ =>
    match h : replay libraryBytes token member lines with
    | .ok lib => decidable_of_iff (DistinctSequences lib)
        ⟨fun hd _ hl => by cases h.symm.trans hl; exact hd, fun hd => hd lib h⟩
    | .error _ => isTrue fun _ hl => by cases h.symm.trans hl
  | .openStore .. | .close | .reconcile .. | .apply .. | .rewrite .. | .registerMember .. | .exclusive .. =>
    inferInstanceAs (Decidable True)

/-- The tables an import builds of its log. -/
def Op.Imports (db : Db) : Op → Prop
  | .importV2 libraryBytes token member lines fresh _ _ =>
    ∃ lib, replay libraryBytes token member lines = .ok lib ∧ importDb lib fresh = .ok db
  | _ => False

/-- A store charged by an older formula. -/
def OldStore (db : Db) : Prop :=
  db.format.isSome ∧ db.charge ≠ some CHARGE_PACKED ∧ ∃ a, OldHolds db a

/-- A store with packed charges. -/
def PackedStore (db : Db) : Prop :=
  db.format.isSome ∧ db.charge = some CHARGE_PACKED ∧ ∃ a, Holds db a

/-- Nothing there, an older store nobody has open, or a packed one. -/
def SiteOK (s : Site) : Prop :=
  (s.db = Db.empty ∧ s.handle = none) ∨ (OldStore s.db ∧ s.handle = none) ∨ PackedStore s.db

/-! ## What each operation leaves of a packed store -/

variable {db db' : Db} {fresh : String}
variable {p : Protocol} {cached : Option Hash} {liveCap wireMin : ℕ} {r : Except StoreError Db} {inUse : Bool}
    {e : StoreEvent}

section

variable (h : PackedStore db)
include h

theorem PackedStore.of_rows (hi : db'.toIndex = db.toIndex) (hh : db'.head = db.head)
    (hl : db'.liveBytes = db.liveBytes) (hc : db'.charge = db.charge) (hf : db'.format = db.format) :
    PackedStore db' := by
  obtain ⟨hformat, hcharge, a, ha⟩ := h
  exact ⟨hf ▸ hformat, hc ▸ hcharge, a, ha.of_rows hi hh hl⟩

theorem reconcileProtocol_packed {recorded : Option IndexedProtocol} {newlyCreated : Bool}
    (hok : reconcileProtocol db recorded newlyCreated fresh = .ok (db', p)) : PackedStore db' := by
  unfold reconcileProtocol at hok
  obtain ⟨current, -, hok⟩ := Except.bind_ok.mp hok
  obtain ⟨migration, -, hok⟩ := Except.bind_ok.mp hok
  split at hok <;> cases hok
  · exact h
  · exact h.of_rows rfl rfl rfl rfl rfl

theorem registerMember_packed {member : Hash} {changed : Bool}
    (hok : registerMember db cached member = .ok (db', changed)) : PackedStore db' := by
  unfold registerMember at hok
  split at hok
  · cases hok
  split at hok
  · split at hok <;> cases hok
    exact h
  · obtain ⟨migration, -, hok⟩ := Except.bind_ok.mp hok
    cases hok
    exact h.of_rows rfl rfl rfl rfl rfl

theorem exclusiveCommit_packed {edit : ExclusiveEdit} (hok : exclusiveCommit db edit = .ok db') :
    PackedStore db' := by
  unfold exclusiveCommit at hok
  repeat' split at hok
  all_goals cases hok
  exact h.of_rows rfl rfl rfl rfl rfl

theorem applyTiered_packed {writes : List Write} {tier : VisitorTier} {authority : WriteAuthority}
    {r : BatchResult} (hok : applyTiered db writes liveCap wireMin tier authority = .ok (db', r)) :
    PackedStore db' := by
  obtain ⟨hformat, hcharge, a, ha⟩ := h
  have hholds := (ha.applyTiered hok).1
  obtain ⟨_, _, _, _, -, -, -, -, rfl, -⟩ := applyTiered_ok hok
  exact ⟨hformat, hcharge, _, hholds⟩

theorem rewrite_packed {base : ℕ} {rows : List RewriteRow}
    (hok : rewrite db base rows wireMin liveCap fresh = .ok (db', p)) : PackedStore db' := by
  obtain ⟨hformat, hcharge, a, ha⟩ := h
  have hholds := ha.rewrite hok
  obtain ⟨_, _, _, _, -, -, -, -, -, rfl, -⟩ := rewrite_ok hok
  exact ⟨hformat, hcharge, _, hholds⟩

end

theorem freshDb_holds (token : Hash) (member : Option Hash) (fresh : String) :
    Holds (freshDb token member fresh) (Cas.State.bare 0) :=
  ⟨rfl, denotes_empty, Cas.sane_bare 0, rfl⟩

theorem freshDb_packed (token : Hash) (member : Option Hash) (fresh : String) :
    PackedStore (freshDb token member fresh) :=
  ⟨rfl, rfl, Cas.State.bare 0, freshDb_holds token member fresh⟩

variable {codec : FragmentCodec} {lib : V2Library} {fault : Option StoreError} {error : StoreError}

/-- **An open that succeeds leaves a packed store**: a fresh one, the one that was there, or an older one
recounted. -/
theorem openStore_packed {token : Hash} {member : Option Hash}
    (h : db = Db.empty ∨ OldStore db ∨ PackedStore db)
    (hok : openStore codec db token member fresh = .ok (db', cached)) : PackedStore db' := by
  unfold openStore at hok
  split at hok
  · cases hok
    exact freshDb_packed _ _ _
  rename_i version hversion
  split at hok
  · cases hok
  split at hok
  · cases hok
  split at hok
  · cases hok
  obtain ⟨db₁, hrecharge, hok⟩ := Except.bind_ok.mp hok
  cases hok
  rcases h with rfl | ⟨hformat, hcharge, a, ha⟩ | h
  · cases hversion
  · have hold : OldHolds { db with
        wireMin := some (db.wireMin.getD 2), migrationGeneration := some (db.migrationGeneration.getD 0),
        generation := some (db.generation.getD fresh) } a := { ha with }
    have hpacked := recharge_holds hold hcharge hrecharge
    refine ⟨?_, hpacked.2, a, hpacked.1⟩
    rw [recharge, if_neg hcharge] at hrecharge
    obtain ⟨_, -, hok⟩ := Except.bind_ok.mp hrecharge
    cases hok
    exact hformat
  · rw [recharge, if_pos h.2.1] at hrecharge
    cases hrecharge
    exact h.of_rows rfl rfl rfl rfl rfl

theorem importDb_packed (hr : Replayed lib) (hd : DistinctSequences lib)
    (h : importDb lib fresh = .ok db) : PackedStore db := by
  have hholds := importDb_holds hr hd h
  obtain ⟨_, -, hok⟩ := Except.bind_ok.mp h
  cases hok
  exact ⟨rfl, rfl, _, hholds⟩

/-! ## The invariant of runs -/

variable {s : Site}

theorem transact_packed (h : SiteOK s)
    (hr : ∀ db, r = .ok db → PackedStore db) : SiteOK (s.transact fault r).1 := by
  unfold Site.transact
  split
  · exact h
  · exact h
  · exact Or.inr (Or.inr (hr _ rfl))

theorem siteOK_open (h : SiteOK s) {handle : Handle} (hh : s.handle = some handle) : PackedStore s.db := by
  rcases h with ⟨-, h⟩ | ⟨-, h⟩ | h
  · rw [h] at hh; cases hh
  · rw [h] at hh; cases hh
  · exact h

theorem siteOK_close (h : SiteOK s) : SiteOK { s with handle := none } := by
  rcases h with ⟨h, -⟩ | ⟨h, -⟩ | h
  · exact Or.inl ⟨h, rfl⟩
  · exact Or.inr (Or.inl ⟨h, rfl⟩)
  · exact Or.inr (Or.inr h)

theorem importV2_siteOK {fault : ImportFault} (h : SiteOK s) (hr : Replayed lib)
    (hd : DistinctSequences lib) : SiteOK (s.importV2 lib fresh inUse fault).1 := by
  unfold Site.importV2
  split
  · exact h
  split
  · exact siteOK_close h
  · exact Or.inl ⟨rfl, rfl⟩
  · exact Or.inl ⟨rfl, rfl⟩
  · rename_i hok
    exact Or.inr (Or.inr (importDb_packed hr hd hok))
  · rename_i hok
    exact Or.inr (Or.inr (importDb_packed hr hd hok))

theorem transact_fst {α : Type} {r : Except StoreError (Db × α)} (h : SiteOK s)
    (hr : ∀ db a, r = .ok (db, a) → PackedStore db) : SiteOK (s.transact fault (r.map Prod.fst)).1 := by
  refine transact_packed h fun db hdb => ?_
  cases r with
  | error => cases hdb
  | ok p =>
    cases hdb
    exact hr _ _ rfl

/-- **Every operation keeps the invariant.** -/
theorem step_siteOK (h : SiteOK s) (he : e.op.LogDistinct) :
    SiteOK (s.step codec e).1 := by
  obtain ⟨op, fault⟩ := e
  cases op
  case close => exact siteOK_close h
  case importV2 =>
    simp only [Site.step]
    split
    · exact h
    · rename_i lib hlib
      exact importV2_siteOK h (replay_replayed hlib) (he lib hlib)
  -- the others open a store or are of an open one
  all_goals cases hh : s.handle
  case openStore.some | reconcile.none | apply.none | rewrite.none | exclusive.none | registerMember.none =>
    simpa only [Site.step, hh] using h
  case openStore.none =>
    simp only [Site.step, hh]
    split
    · exact h
    · exact h
    · rename_i db cached hok
      refine Or.inr (Or.inr (openStore_packed ?_ hok))
      exact h.imp And.left (Or.imp_left And.left)
  all_goals
    have hpacked := siteOK_open h hh
    simp only [Site.step, hh]
  case reconcile.some => exact transact_fst h fun _ _ hok => reconcileProtocol_packed hpacked hok
  case apply.some => exact transact_fst h fun _ _ hok => applyTiered_packed hpacked hok
  case rewrite.some => exact transact_fst h fun _ _ hok => rewrite_packed hpacked hok
  case exclusive.some => exact transact_packed h fun _ hok => exclusiveCommit_packed hpacked hok
  case registerMember.some =>
    split
    · exact h
    · exact h
    · rename_i db changed hok
      exact Or.inr (Or.inr (registerMember_packed hpacked hok))

theorem run_siteOK (codec : FragmentCodec) {es : List StoreEvent} (h : SiteOK s)
    (hes : ∀ e ∈ es, e.op.LogDistinct) : SiteOK (s.run codec es) :=
  Run.exec_inv (P := fun _ e => e.op.LogDistinct) (fun _ _ hs he => step_siteOK hs he) h
    (Run.meets_of_forall hes s)

/-! ## Failed operations -/

theorem transact_error
    (h : (s.transact fault r).2 = .error error) : (s.transact fault r).1 = s := by
  unfold Site.transact at h ⊢
  split at h
  · rfl
  · rfl
  · cases h

/-- **A failed operation leaves the site as it was**, unless it is an import. -/
theorem step_error (h : (s.step codec e).2 = .error error)
    (hi : e.op.isImport = false) : (s.step codec e).1 = s := by
  obtain ⟨op, fault⟩ := e
  cases op with
  | importV2 => cases hi
  | close => cases h
  | openStore =>
    cases hh : s.handle with
    | some => simp only [Site.step, hh]
    | none =>
      simp only [Site.step, hh] at h ⊢
      split at h
      · rfl
      · rfl
      · cases h
  | registerMember =>
    cases hh : s.handle with
    | none => simp only [Site.step, hh]
    | some =>
      simp only [Site.step, hh] at h ⊢
      split at h
      · rfl
      · rfl
      · cases h
  | _ =>
    cases hh : s.handle with
    | none => simp only [Site.step, hh]
    | some =>
      simp only [Site.step, hh] at h ⊢
      exact transact_error h

/-- A failed import leaves the tables as they were, none at all, or its own, where only the directory was not
synced. -/
theorem importV2_error {fault : ImportFault} (h : (s.importV2 lib fresh inUse fault).2 = .error error) :
    (s.importV2 lib fresh inUse fault).1.db = s.db ∨ (s.importV2 lib fresh inUse fault).1.db = Db.empty ∨
      importDb lib fresh = .ok (s.importV2 lib fresh inUse fault).1.db := by
  unfold Site.importV2 at h ⊢
  split at h
  · rename_i hc
    exact Or.inl (by rw [if_pos hc])
  · rename_i hc
    simp only [if_neg hc]
    split at h
    · exact Or.inl rfl
    · exact Or.inr (Or.inl rfl)
    · exact Or.inr (Or.inl rfl)
    · rename_i hok
      cases h
      exact Or.inr (Or.inr hok)
    · cases h

/-- Where a run starts: no file, or a store of an older formula, and nobody has it open. -/
def Site.Start (s : Site) : Prop := s.handle = none ∧ (s.db = Db.empty ∨ OldStore s.db)

/-- **The representation invariant of a library store.** After every run of store operations, an open store is
packed and a packed store's tables agree with each other. From there an operation that answers an error leaves
every table and metadata value as it was, or is an import of a log: a failed import leaves the tables as they
were, no tables, or its own. -/
theorem store_run_rep (codec : FragmentCodec) {s : Site} (hs : s.Start) {es : List StoreEvent}
    (hes : ∀ e ∈ es, e.op.LogDistinct) :
    ((s.run codec es).handle.isSome → (s.run codec es).db.charge = some CHARGE_PACKED) ∧
    ((s.run codec es).db.charge = some CHARGE_PACKED → Rep (s.run codec es).db) ∧
    ∀ e error, ((s.run codec es).step codec e).2 = .error error →
      ((s.run codec es).step codec e).1.db = (s.run codec es).db ∨
      (e.op.isImport = true ∧ ((s.run codec es).step codec e).1.db = Db.empty) ∨
      (e.op.Imports ((s.run codec es).step codec e).1.db ∧
        (e.op.LogDistinct → Rep ((s.run codec es).step codec e).1.db)) := by
  have hstart : SiteOK s := by
    obtain ⟨hclosed, hempty | hold⟩ := hs
    · exact Or.inl ⟨hempty, hclosed⟩
    · exact Or.inr (Or.inl ⟨hold, hclosed⟩)
  have hok := run_siteOK codec hstart hes
  have hrep : ∀ {db : Db}, PackedStore db → Rep db := fun ⟨_, _, _, ha⟩ => ha.rep
  refine ⟨?_, ?_, ?_⟩
  · intro hopen
    obtain ⟨handle, hh⟩ := Option.isSome_iff_exists.mp hopen
    exact (siteOK_open hok hh).2.1
  · intro hpacked
    rcases hok with ⟨h, -⟩ | ⟨h, -⟩ | h
    · rw [h] at hpacked
      cases hpacked
    · exact absurd hpacked h.2.1
    · exact hrep h
  · intro e error herror
    by_cases hi : e.op.isImport = false
    · exact Or.inl (by rw [step_error herror hi])
    · obtain ⟨op, fault⟩ := e
      cases op with
      | importV2 =>
        simp only [Site.step] at herror ⊢
        split at herror
        · exact Or.inl rfl
        · rename_i lib hlib
          rcases importV2_error herror with h | h | h
          · exact Or.inl h
          · exact Or.inr (Or.inl ⟨rfl, h⟩)
          · refine Or.inr (Or.inr ⟨⟨lib, hlib, h⟩, fun hd => hrep ?_⟩)
            exact importDb_packed (replay_replayed hlib) (hd lib hlib) h
      | _ => exact absurd rfl hi

/-! ## Runs -/

def sampleKey : String := "aaaaaaaaaaaaaaaa"

def otherKey : String := "bbbbbbbbbbbbbbbb"

def sampleTier : VisitorTier := ⟨false, 1000, 1000⟩

/-- A library is opened, a row is written, and the library is closed. -/
def sampleRun : List StoreEvent :=
  [⟨.openStore 1 none "g", none⟩,
   ⟨.apply [⟨sampleKey, 0, "v"⟩] 1000 2 sampleTier ⟨none, none⟩, none⟩,
   ⟨.close, none⟩]

/-- A log is imported. -/
def sampleImport (lines : List Line) : StoreEvent := ⟨.importV2 100000 1 none lines "h" false .none, none⟩

/-- A failed import does not leave the tables as they were: the database beside the log is gone. And a row of the
log at sequence `0` is imported as it is, below the sequences that a store gives. -/
theorem failed_import_drops_tables :
    (let s := (⟨Db.empty, none⟩ : Site).run canonicalCodec sampleRun
     (∀ e ∈ sampleRun, e.op.LogDistinct) ∧ (sampleImport [⟨2 ^ 44, sampleKey, "w"⟩]).op.LogDistinct ∧
     (s.step canonicalCodec (sampleImport [⟨2 ^ 44, sampleKey, "w"⟩])).2 = .error (.invalid "v3 head overflow") ∧
     (s.step canonicalCodec (sampleImport [⟨2 ^ 44, sampleKey, "w"⟩])).1.db ≠ s.db) ∧
    ¬ Rep ((⟨Db.empty, none⟩ : Site).run canonicalCodec [sampleImport [⟨0, sampleKey, "w"⟩]]).db := by
  refine ⟨⟨by decide +kernel, by decide +kernel, by decide +kernel, by decide +kernel⟩, fun hrep => ?_⟩
  obtain ⟨head, -, hpos, -⟩ := hrep.bounds 0 (rowFragment 0 sampleKey "w") (by decide +kernel)
  cases hpos

/-- A log of three lines for two keys is imported over the rows, and a batch then replaces both rows of it. -/
def sampleImported : List StoreEvent :=
  sampleRun ++ [sampleImport [⟨3, sampleKey, "u"⟩, ⟨5, otherKey, "w"⟩, ⟨7, sampleKey, "x"⟩],
    ⟨.openStore 1 none "i", none⟩,
    ⟨.apply [⟨otherKey, 5, "y"⟩, ⟨sampleKey, 7, "z"⟩] 1000 2 sampleTier ⟨none, none⟩, none⟩]

theorem store_run_rep_sample :
    let s := (⟨Db.empty, none⟩ : Site).run canonicalCodec sampleImported
    (⟨Db.empty, none⟩ : Site).Start ∧ (∀ e ∈ sampleImported, e.op.LogDistinct) ∧ Rep s.db ∧
      s.db.sequence.entries = [(8, rowFragment 8 otherKey "y"), (9, rowFragment 9 sampleKey "z")] := by
  have hstart : (⟨Db.empty, none⟩ : Site).Start := ⟨rfl, Or.inl rfl⟩
  have hlogs : ∀ e ∈ sampleImported, e.op.LogDistinct := by decide +kernel
  exact ⟨hstart, hlogs, (store_run_rep canonicalCodec hstart hlogs).2.1 (by decide +kernel), by decide +kernel⟩

end DenEdge
