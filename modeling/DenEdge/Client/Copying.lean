import DenEdge.Base.Except
import DenEdge.Client.Chunks
import DenEdge.Client.Destination

/-!
# A copy under way

What holds of a copy between two of its requests: what the destination's log remembers was there (`DestOK`), what
is no longer to be moved is there (`Copied`), and what is still to be sent replaces nothing above it
(`PlannedOK`).

* `beginRound_ok`: a round plans such writes, and a copy that ends well has moved everything.
* `takeAnswer_ok`: taking an answer keeps all of it.
-/

namespace DenEdge.Client

variable {D V P : Type} {core : Core D V} {le : Row D V → Row D V → Prop}

/-! ## What has been moved -/

/-- The version a destination may have of a row that was moved to it: one at or above it, one whose merge with it
is too large to store, or a document of a newer format. -/
def CellCovers (core : Core D V) (le : Row D V → Row D V → Prop) (ours : Row D V) : Cell D V P → Prop
  | .row r => le ours r ∨
      ∃ held, core.rowName held = core.rowName ours ∧ le held r ∧ core.fits (core.merge held ours) = false
  | .newer _ _ => True
  | _ => False

/-- A row is too large to store, or the destination has it. -/
def Covered (core : Core D V) (le : Row D V → Row D V → Prop) (new : Edge D V P) (ours : Row D V) : Prop :=
  core.fits ours = false ∨ ∃ e, new.find (core.rowName ours) = some e ∧ CellCovers core le ours e.value

variable {ours : Row D V} {c : Cell D V P} {seq : ℕ} {rows : List (String × Row D V)}
    {kept : List (String × D × P)} {w : Planned D V P}

theorem CellCovers.above (hj : core.Joins le) {c' : Cell D V P} (h : CellCovers core le ours c)
    (hle : CellLe le c c') : CellCovers core le ours c' := by
  rcases hle with rfl | ⟨d, p, rfl⟩ | ⟨r, r', rfl, rfl, hrr⟩
  · exact h
  · trivial
  · rcases h with hours | ⟨held, hname, hheld, hfits⟩
    · exact .inl (hj.trans hours hrr)
    · exact .inr ⟨held, hname, hj.trans hheld hrr, hfits⟩

variable {new new' : Edge D V P}

theorem Covered.grows (hj : core.Joins le) (hg : Grows le new new') (h : Covered core le new ours) :
    Covered core le new' ours := by
  refine h.imp_right ?_
  rintro ⟨e, he, hcovers⟩
  obtain ⟨e', he', -, -, hle⟩ := hg _ e he
  exact ⟨e', he', hcovers.above hj hle⟩

theorem Knows.covered (hj : core.Joins le)
    (h : Knows le new (core.rowName ours) seq c) (hc : CellCovers core le ours c) : Covered core le new ours := by
  obtain ⟨e, he, -, -, hle⟩ := h
  exact .inr ⟨e, he, hc.above hj hle⟩

variable {k : String} {copy : Copy D V P} {applied : List (String × ℕ)}
    {conflicts : List (String × Conflict D V P)}

theorem Knows.found (h : Knows le new k seq c) : (new.find k).isSome := by
  obtain ⟨e, he, -⟩ := h
  rw [he]
  rfl

theorem Grows.found (hg : Grows le new new') (h : (new.find k).isSome) : (new'.find k).isSome := by
  obtain ⟨e, he⟩ := Option.isSome_iff_exists.mp h
  obtain ⟨e', he', -⟩ := hg k e he
  rw [he']
  rfl

/-! ## What the destination's log remembers -/

/-- A row that the log remembers under a name: it was there, or a document of a newer format was. -/
def Remembers (core : Core D V) (le : Row D V → Row D V → Prop) (new : Edge D V P) (clock : ℕ)
    (n : String) (seq : ℕ) (r : Row D V) : Prop :=
  core.rowName r = n ∧ ((core.newer r = false ∧ Timely clock r ∧ Knows le new n seq (.row r)) ∨
    (core.newer r = true ∧ ∃ d p, Knows le new n seq (.newer d p)))

def DestOK (core : Core D V) (le : Row D V → Row D V → Prop) (new : Edge D V P) (clock : ℕ)
    (dest : Dest D V) : Prop :=
  ∀ n seq r, dest.acknowledged n = some (seq, r) → Remembers core le new clock n seq r

theorem destOK_new (new : Edge D V P) (clock : ℕ) : DestOK core le new clock Dest.new := by
  intro n seq r h
  cases h

variable {clock clock' : ℕ}

theorem DestOK.grows (hj : core.Joins le) (hg : Grows le new new') (hclock : clock ≤ clock') {dest : Dest D V}
    (h : DestOK core le new clock dest) : DestOK core le new' clock' dest := by
  intro n seq r hack
  obtain ⟨hname, hrow⟩ := h n seq r hack
  refine ⟨hname, ?_⟩
  rcases hrow with ⟨hnewer, htimely, hknows⟩ | ⟨hnewer, d, p, hknows⟩
  · exact .inl ⟨hnewer, htimely.mono hclock, hknows.grows hj hg⟩
  · exact .inr ⟨hnewer, d, p, hknows.grows hj hg⟩

/-- What is remembered of one more row. -/
theorem DestOK.update {dest : Dest D V} (h : DestOK core le new clock dest) {n : String} {r : Row D V}
    (hrow : Remembers core le new clock n seq r) :
    DestOK core le new clock
      { dest with acknowledged := Function.update dest.acknowledged n (some (seq, r)) } := by
  intro n' seq' r' hack
  change Function.update dest.acknowledged n (some (seq, r)) n' = _ at hack
  by_cases hn : n' = n
  · subst hn
    rw [Function.update_self] at hack
    cases hack
    exact hrow
  · rw [Function.update_of_ne hn] at hack
    exact h n' seq' r' hack

/-! ## What is moved -/

/-- The rows of a move, by name; the last read of a name stands. -/
def Moving.byName (core : Core D V) (m : Moving D V P) : List (String × Row D V) :=
  Assoc.ofList (m.rows.map fun row => (core.rowName row, row))

def Moving.keptByName (m : Moving D V P) : List (String × D × P) := Assoc.ofList m.kept

/-- Rows this build writes, none ahead of its clock, and documents it does not. -/
structure MovingOK (core : Core D V) (clock : ℕ) (m : Moving D V P) : Prop where
  rows : ∀ r ∈ m.rows, core.newer r = false ∧ Timely clock r
  kept : ∀ e ∈ m.kept, core.documentName e.2.1 = e.1 ∧ WIRE < core.format e.2.1

variable {m : Moving D V P}

theorem MovingOK.mono (hclock : clock ≤ clock') (h : MovingOK core clock m) : MovingOK core clock' m :=
  ⟨fun r hr => ⟨(h.rows r hr).1, (h.rows r hr).2.mono hclock⟩, h.kept⟩

theorem MovingOK.byName (h : MovingOK core clock m) {e : String × Row D V} (he : e ∈ m.byName core) :
    core.rowName e.2 = e.1 ∧ core.newer e.2 = false ∧ Timely clock e.2 := by
  obtain ⟨r, hr, rfl⟩ := List.mem_map.mp (Assoc.mem_ofList he)
  exact ⟨rfl, h.rows r hr⟩

theorem MovingOK.keptByName (h : MovingOK core clock m) {e : String × D × P} (he : e ∈ m.keptByName) :
    core.documentName e.2.1 = e.1 ∧ WIRE < core.format e.2.1 :=
  h.kept e (Assoc.mem_ofList he)

/-- What is still to be moved is of the move, and the rest of it is there. -/
structure Copied (core : Core D V) (le : Row D V → Row D V → Prop) (new : Edge D V P) (m : Moving D V P)
    (rows : List (String × Row D V)) (kept : List (String × D × P)) : Prop where
  rowsOf : ∀ e ∈ rows, e ∈ m.byName core
  keptOf : ∀ e ∈ kept, e ∈ m.keptByName
  moved : ∀ e ∈ m.byName core, e ∈ rows ∨ Covered core le new e.2
  movedKept : ∀ e ∈ m.keptByName, e ∈ kept ∨ (new.find e.1).isSome

theorem copied_start (new : Edge D V P) (m : Moving D V P) : Copied core le new m (m.byName core) m.keptByName :=
  ⟨fun _ h => h, fun _ h => h, fun _ h => .inl h, fun _ h => .inl h⟩

theorem Copied.grows (hj : core.Joins le) (hg : Grows le new new')
    (h : Copied core le new m rows kept) : Copied core le new' m rows kept :=
  ⟨h.rowsOf, h.keptOf, fun e he => (h.moved e he).imp_right (Covered.grows hj hg),
    fun e he => (h.movedKept e he).imp_right hg.found⟩

/-- What is there need not be moved. -/
theorem Copied.filter (h : Copied core le new m rows kept) {p : String × Row D V → Bool}
    {q : String × D × P → Bool} (hrows : ∀ e ∈ rows, p e = false → Covered core le new e.2)
    (hkept : ∀ e ∈ kept, q e = false → (new.find e.1).isSome) :
    Copied core le new m (rows.filter p) (kept.filter q) := by
  refine ⟨fun e he => h.rowsOf e (List.mem_of_mem_filter he), fun e he => h.keptOf e (List.mem_of_mem_filter he),
    fun e he => ?_, fun e he => ?_⟩
  · rcases h.moved e he with hmem | hcovered
    · cases hp : p e with
      | true => exact .inl (List.mem_filter.mpr ⟨hmem, hp⟩)
      | false => exact .inr (hrows e hmem hp)
    · exact .inr hcovered
  · rcases h.movedKept e he with hmem | hfound
    · cases hq : q e with
      | true => exact .inl (List.mem_filter.mpr ⟨hmem, hq⟩)
      | false => exact .inr (hkept e hmem hq)
    · exact .inr hfound

/-! ## What is still to be sent -/

/-- A planned write is of a row of the move, or of one of its newer documents. -/
structure PlannedOK (core : Core D V) (le : Row D V → Row D V → Prop) (new : Edge D V P) (clock : ℕ)
    (m : Moving D V P) (w : Planned D V P) : Prop where
  good : GoodWrite core le new clock w.write
  row : ∀ row, w.row = some row → w.cell = .row row ∧ ∃ ours, (w.name, ours) ∈ m.byName core ∧ le ours row
  kept : w.row = none → ∃ d p, w.cell = .newer d p

theorem PlannedOK.grows (hj : core.Joins le) (hg : Grows le new new') (hclock : clock ≤ clock')
    (h : PlannedOK core le new clock m w) : PlannedOK core le new' clock' m w :=
  ⟨h.good.grows hj hg hclock, h.row, h.kept⟩

/-- A copy between two requests. -/
structure CopyOK (core : Core D V) (le : Row D V → Row D V → Prop) (new : Edge D V P) (clock : ℕ)
    (m : Moving D V P) (copy : Copy D V P) : Prop where
  copied : Copied core le new m copy.rows copy.kept
  planned : ∀ chunk ∈ copy.chunks, ∀ w ∈ chunk, PlannedOK core le new clock m w

theorem CopyOK.grows (hj : core.Joins le) (hg : Grows le new new') (hclock : clock ≤ clock')
    (h : CopyOK core le new clock m copy) : CopyOK core le new' clock' m copy :=
  ⟨h.copied.grows hj hg, fun chunk hchunk w hw => (h.planned chunk hchunk w hw).grows hj hg hclock⟩

section Plan

variable {dest : Dest D V}

theorem planKept_none (hdest : DestOK core le new clock dest) {name : String} {d : D} {plaintext : P}
    (h : planKept dest name d plaintext = none) : (new.find name).isSome := by
  unfold planKept at h
  split_ifs at h with hack
  obtain ⟨⟨seq, r⟩, hr⟩ := Option.isSome_iff_exists.mp hack
  rcases (hdest name seq r hr).2 with ⟨-, -, hknows⟩ | ⟨-, d, p, hknows⟩
  · exact hknows.found
  · exact hknows.found

theorem planKept_some (hm : MovingOK core clock m) {e : String × D × P} (he : e ∈ m.keptByName)
    (h : planKept dest e.1 e.2.1 e.2.2 = some w) : PlannedOK core le new clock m w := by
  unfold planKept at h
  split_ifs at h
  cases h
  refine ⟨⟨⟨hm.keptByName he, .inr ⟨_, _, rfl⟩⟩, .inl rfl⟩, fun row hrow => ?_, fun _ => ⟨_, _, rfl⟩⟩
  cases hrow

variable [DecidableEq D] [DecidableEq V] (hj : core.Joins le) (hdest : DestOK core le new clock dest)
include hj hdest

/-- A row with no write is moved already, or cannot be. -/
theorem planRow_none (hnewer : core.newer ours = false)
    (h : (planRow core dest (core.rowName ours) ours : Option (Planned D V P)) = none) :
    Covered core le new ours := by
  unfold planRow at h
  cases hack : dest.acknowledged (core.rowName ours) with
  | none =>
    rw [hack] at h
    exact .inl (by simpa using h)
  | some held =>
    obtain ⟨seq, held⟩ := held
    obtain ⟨hname, hheld⟩ := hdest _ seq held hack
    rcases hheld with ⟨hheldNewer, -, hknows⟩ | ⟨-, d, p, hknows⟩
    · rw [hack] at h
      simp only [hheldNewer, Bool.false_eq_true, if_false] at h
      refine hknows.covered hj ?_
      split_ifs at h with heq hfits
      · -- the destination's version has it in it
        have hle := hj.right hname hheldNewer hnewer
        rw [← heq] at hle
        exact .inl hle
      · exact .inr ⟨held, hname, hj.refl held, by simpa using hfits⟩
    · exact hknows.covered hj trivial

theorem planRow_some (hm : MovingOK core clock m)
    {e : String × Row D V} (he : e ∈ m.byName core) (h : planRow core dest e.1 e.2 = some w) :
    PlannedOK core le new clock m w := by
  obtain ⟨hname, hnewer, htimely⟩ := hm.byName he
  unfold planRow at h
  cases hack : dest.acknowledged e.1 with
  | none =>
    rw [hack] at h
    simp only [Option.ite_none_right_eq_some, Option.some.injEq] at h
    obtain ⟨-, rfl⟩ := h
    refine ⟨⟨⟨⟨hname, hnewer⟩, .inl ⟨e.2, rfl, htimely⟩⟩, .inl rfl⟩, fun row hrow => ?_, fun hrow => ?_⟩
    · cases hrow
      exact ⟨rfl, e.2, he, hj.refl e.2⟩
    · cases hrow
  | some held =>
    obtain ⟨seq, held⟩ := held
    obtain ⟨hheldName, hheld⟩ := hdest _ seq held hack
    rw [hack] at h
    rcases hheld with ⟨hheldNewer, hheldTimely, hknows⟩ | ⟨hheldNewer, -⟩
    · simp only [hheldNewer, Bool.false_eq_true, if_false] at h
      split_ifs at h with heq hfits
      cases h
      have hsame : core.rowName held = core.rowName e.2 := hheldName.trans hname.symm
      refine ⟨⟨⟨⟨(hj.name hsame).trans hheldName, hj.format hheldNewer hnewer⟩,
        .inl ⟨_, rfl, hj.timely hheldTimely htimely⟩⟩, .inr ⟨.row held, hknows, ?_⟩⟩, fun row hrow => ?_,
        fun hrow => ?_⟩
      · exact .inr (.inr ⟨held, _, rfl, rfl, hj.left hsame hheldNewer hnewer⟩)
      · cases hrow
        exact ⟨rfl, e.2, he, hj.right hsame hheldNewer hnewer⟩
      · cases hrow
    · simp only [hheldNewer, if_true, reduceCtorEq] at h

/-- **A round.** It plans sound writes of what is left; and a copy that ends well has left nothing. -/
theorem beginRound_ok (hm : MovingOK core clock m) (size : Planned D V P → ℕ) {left : ℕ}
    (h : Copied core le new m rows kept) :
    (beginRound core size dest left rows kept).Ends (fun done => done = true → Copied core le new m [] [])
      (CopyOK core le new clock m) := by
  have hempty : ∀ {rows : List (String × Row D V)} {kept : List (String × D × P)},
      Copied core le new m rows kept → (rows.isEmpty && kept.isEmpty) = true → Copied core le new m [] [] := by
    intro rows kept hcopied hnone
    rw [Bool.and_eq_true, List.isEmpty_iff, List.isEmpty_iff] at hnone
    obtain ⟨rfl, rfl⟩ := hnone
    exact hcopied
  induction left generalizing rows kept with
  | zero => exact fun hdone => hempty h hdone
  | succ left ih =>
    unfold beginRound
    split
    · rename_i hnone
      exact fun _ => hempty h hnone
    have hfilter : Copied core le new m
        (rows.filter fun e => (planRow core dest e.1 e.2 : Option (Planned D V P)).isSome)
        (kept.filter fun e => (planKept dest e.1 e.2.1 e.2.2 : Option (Planned D V P)).isSome) := by
      refine h.filter (fun e he hplan => ?_) (fun e he hplan => planKept_none hdest (by simpa using hplan))
      obtain ⟨hname, hnewer, -⟩ := hm.byName (h.rowsOf e he)
      refine planRow_none hj hdest hnewer ?_
      rw [hname]
      simpa using hplan
    dsimp only
    split
    · exact ih hfilter
    · refine ⟨hfilter, fun chunk hchunk w hw => ?_⟩
      have hwrites := List.mem_flatten.mpr ⟨chunk, hchunk, hw⟩
      rw [chunks_flatten, List.nil_append] at hwrites
      rcases List.mem_append.mp hwrites with hrow | hkept
      · obtain ⟨e, he, hplan⟩ := List.mem_filterMap.mp hrow
        exact planRow_some hj hdest hm (hfilter.rowsOf e he) hplan
      · obtain ⟨e, he, hplan⟩ := List.mem_filterMap.mp hkept
        exact planKept_some hm (hfilter.keptOf e he) hplan

end Plan

/-! ## What an answer makes of it -/

/-- A value a move wrote, as the destination's log reads it. -/
theorem readRow_ok {theirs : Row D V} (hours : OurCell core clock k c)
    (hknows : Knows le new k seq c) (h : readRow clock c = some theirs) :
    Remembers core le new clock k seq theirs := by
  obtain ⟨hnamed, ⟨r, rfl, htimely⟩ | ⟨d, p, rfl⟩⟩ := hours
  · have htheirs : theirs = r := by
      cases r with
      | doc d =>
        cases h
        rfl
      | set s =>
        simp only [readRow] at h
        split_ifs at h
        rw [believe_of_timely htimely] at h
        cases h
        rfl
    rw [htheirs]
    exact ⟨hnamed.1, .inl ⟨hnamed.2, htimely, hknows⟩⟩
  · cases h
    exact ⟨hnamed.1, .inr ⟨by simpa [Core.newer] using hnamed.2, d, p, hknows⟩⟩

/-- A write that was applied is moved, under its name. -/
theorem Copied.erase (hj : core.Joins le) (h : Copied core le new m rows kept) (hm : MovingOK core clock m)
    (hw : PlannedOK core le new clock m w) (hknows : Knows le new w.name seq w.cell) :
    Copied core le new m (Assoc.erase rows w.name) (Assoc.erase kept w.name) := by
  refine h.filter (fun e he hname => ?_) (fun e he hname => ?_)
  · have hkey : e.1 = w.name := by simpa using hname
    have hrow := hm.byName (h.rowsOf e he)
    rw [← hkey, ← hrow.1] at hknows
    refine hknows.covered hj ?_
    cases hrowOf : w.row with
    | none =>
      obtain ⟨d, p, hcell⟩ := hw.kept hrowOf
      rw [hcell]
      trivial
    | some row =>
      obtain ⟨hcell, ours, hours, hle⟩ := hw.row row hrowOf
      -- one row of the move for each name
      have hsame : e = (w.name, ours) :=
        List.inj_on_of_nodup_map (Assoc.keys_ofList _) (h.rowsOf e he) hours hkey
      rw [hcell, hsame]
      exact .inl hle
  · have hkey : e.1 = w.name := by simpa using hname
    rw [hkey]
    exact hknows.found

/-- What one write's answer makes of the destination's log and of the copy. -/
theorem takeWrite_ok (hj : core.Joins le) (hm : MovingOK core clock m)
    {state state' : Dest D V × Copy D V P}
    (hdest : DestOK core le new clock state.1) (hcopied : Copied core le new m state.2.rows state.2.kept)
    (hw : PlannedOK core le new clock m w) (hanswer : AnswerKnows core le new clock applied conflicts w.write)
    (h : takeWrite clock applied conflicts state w = some state') :
    DestOK core le new clock state'.1 ∧ Copied core le new m state'.2.rows state'.2.kept := by
  unfold takeWrite at h
  unfold AnswerKnows at hanswer
  have hkey : w.write.key = w.name := rfl
  rw [hkey] at hanswer
  cases happlied : Assoc.get applied w.name with
  | some seq =>
    rw [happlied] at h hanswer
    cases h
    refine ⟨?_, hcopied.erase hj hm hw hanswer⟩
    cases hrowOf : w.row with
    | none => exact hdest
    | some row =>
      obtain ⟨hcell, -⟩ := hw.row row hrowOf
      have hnamed : (Cell.row row : Cell D V P).Named core w.name := hcell ▸ hw.good.ours.1
      have htimely : Timely clock row := by
        rcases hw.good.ours.2 with ⟨r, hr, ht⟩ | ⟨d, p, hr⟩
        · cases hcell.symm.trans hr
          exact ht
        · cases hcell.symm.trans hr
      exact hdest.update ⟨hnamed.1, .inl ⟨hnamed.2, htimely, hcell ▸ hanswer⟩⟩
  | none =>
    rw [happlied] at h hanswer
    simp only at h
    split at h
    · rename_i entry hentry
      obtain ⟨theirs, htheirs, rfl⟩ := Option.map_eq_some_iff.mp h
      obtain ⟨hknows, hours⟩ := hanswer entry hentry
      exact ⟨hdest.update (readRow_ok hours hknows htheirs), hcopied⟩
    · cases h

/-- **An answer taken** keeps what holds of a copy. -/
theorem takeAnswer_ok (hj : core.Joins le) (hm : MovingOK core clock m) {generation : ℕ}
    {dest dest' : Dest D V} {copy' : Copy D V P}
    (hdest : DestOK core le new clock dest) (hcopy : CopyOK core le new clock m copy)
    (hanswer : ∀ w ∈ copy.chunks.head?.getD [], AnswerKnows core le new clock applied conflicts w.write)
    (h : takeAnswer clock generation applied conflicts dest copy = some (dest', copy')) :
    DestOK core le new clock dest' ∧ CopyOK core le new clock m copy' := by
  unfold takeAnswer at h
  cases hchunks : copy.chunks with
  | nil =>
    rw [hchunks] at h
    cases h
  | cons chunk =>
    have hplanned := hcopy.planned
    rw [hchunks] at h hanswer hplanned
    -- the writes of the batch are taken one by one
    have hfold : ∀ (ws : List (Planned D V P)) (state state' : Dest D V × Copy D V P), (∀ w ∈ ws, w ∈ chunk) →
        DestOK core le new clock state.1 → Copied core le new m state.2.rows state.2.kept →
        ws.foldlM (takeWrite clock applied conflicts) state = some state' →
        DestOK core le new clock state'.1 ∧ Copied core le new m state'.2.rows state'.2.kept := by
      intro ws
      induction ws with
      | nil =>
        intro state state' _ hd hc hnil
        cases hnil
        exact ⟨hd, hc⟩
      | cons w ws ih =>
        intro state state' hmem hd hc hcons
        obtain ⟨mid, hmid, hrest⟩ := Option.bind_eq_some_iff.mp hcons
        have hw := hmem w (by simp)
        obtain ⟨hd', hc'⟩ :=
          takeWrite_ok hj hm hd hc (hplanned chunk (by simp) w hw) (hanswer w (by simpa using hw)) hmid
        exact ih mid state' (fun w' hw' => hmem w' (List.mem_cons_of_mem _ hw')) hd' hc' hrest
    obtain ⟨⟨d, c⟩, hdc, heq⟩ := Option.map_eq_some_iff.mp h
    cases heq
    obtain ⟨hd, hc⟩ := hfold chunk _ _ (fun _ hw => hw) hdest hcopy.copied hdc
    exact ⟨hd, hc, fun chunk' hchunk' => hplanned chunk' (List.mem_cons_of_mem _ hchunk')⟩

end DenEdge.Client
