import DenEdge.Client.Moving

/-!
# What is known of a move's destination

The destination is written only by the moves of one browser, each write a compare-and-set on a version it has
seen, so its rows only grow. `Knows` is what one answer tells of a row for good; what a destination's log
remembers and what is still to be sent (`GoodWrite`) rest on it, and stay true while late writes land
(`Knows.grows`).
-/

namespace DenEdge.Client

variable {D V P : Type} {core : Core D V} {le : Row D V → Row D V → Prop}

/-! ## Rows that only grow -/

/-- One value after another: the same, a row above it, or a newer document, which is never written over. -/
def CellLe (le : Row D V → Row D V → Prop) (c c' : Cell D V P) : Prop :=
  c' = c ∨ (∃ d p, c' = .newer d p) ∨ ∃ r r', c = .row r ∧ c' = .row r' ∧ le r r'

variable {c : Cell D V P} {k : String} {new : Edge D V P}

theorem CellLe.trans (hj : core.Joins le) {a b : Cell D V P} (hab : CellLe le a b) (hbc : CellLe le b c) :
    CellLe le a c := by
  rcases hbc with rfl | hnewer | ⟨r, r', hb, hc, hle⟩
  · exact hab
  · exact .inr (.inl hnewer)
  · rcases hab with rfl | ⟨d, p, hnewer⟩ | ⟨q, r₁, ha, hb', hle'⟩
    · exact .inr (.inr ⟨r, r', hb, hc, hle⟩)
    · rw [hb] at hnewer
      cases hnewer
    · rw [hb] at hb'
      cases hb'
      exact .inr (.inr ⟨q, r', ha, hc, hj.trans hle' hle⟩)

/-- Every row stays, under the same sequence as it is or under a later one no lower. -/
def Grows (le : Row D V → Row D V → Prop) (new new' : Edge D V P) : Prop :=
  ∀ k e, new.find k = some e → ∃ e', new'.find k = some e' ∧ e.seq ≤ e'.seq ∧ (e.seq = e'.seq → e' = e) ∧
    CellLe le e.value e'.value

theorem Grows.refl (new : Edge D V P) : Grows le new new := fun _ e he => ⟨e, he, le_rfl, fun _ => rfl, .inl rfl⟩

def Edge.Retired (edge : Edge D V P) : Prop := ∃ s l, edge = .retired s l

/-- What an answer tells of a row: it was at a sequence with a value, and has only grown since. -/
def Knows (le : Row D V → Row D V → Prop) (new : Edge D V P) (k : String) (seq : ℕ) (c : Cell D V P) : Prop :=
  ∃ e, new.find k = some e ∧ seq ≤ e.seq ∧ (seq = e.seq → e.value = c) ∧ CellLe le c e.value

variable {new' : Edge D V P} {clock' : ℕ} {w : Write D V P} {ws : List (Write D V P)} {feed : Store D V P}

theorem Knows.grows (hj : core.Joins le) (hg : Grows le new new') {seq : ℕ}
    (h : Knows le new k seq c) : Knows le new' k seq c := by
  obtain ⟨e, he, hseq, hsame, hle⟩ := h
  obtain ⟨e', he', hseq', hsame', hle'⟩ := hg k e he
  refine ⟨e', he', hseq.trans hseq', fun heq => ?_, hle.trans hj hle'⟩
  -- at the sequence it was known at, nothing has been written since
  have hee : e.seq = e'.seq := le_antisymm hseq' (heq ▸ hseq)
  rw [hsame' hee]
  exact hsame (heq.trans hee.symm)

/-! ## Writes -/

variable {clock : ℕ}

/-- A value that a move writes: a row or a newer document, under its name. -/
def OurCell (core : Core D V) (clock : ℕ) (k : String) (c : Cell D V P) : Prop :=
  c.Named core k ∧ ((∃ r, c = .row r ∧ Timely clock r) ∨ ∃ d p, c = .newer d p)

theorem OurCell.mono (hclock : clock ≤ clock') (h : OurCell core clock k c) : OurCell core clock' k c := by
  refine ⟨h.1, ?_⟩
  rcases h.2 with ⟨r, hr, ht⟩ | hnewer
  · exact .inl ⟨r, hr, ht.mono hclock⟩
  · exact .inr hnewer

/-- A write of a move that is still to land: where it replaces a version, over one it has seen and no lower. -/
structure GoodWrite (core : Core D V) (le : Row D V → Row D V → Prop) (new : Edge D V P) (clock : ℕ)
    (w : Write D V P) : Prop where
  ours : OurCell core clock w.key w.value
  sound : w.base = 0 ∨ ∃ c, Knows le new w.key w.base c ∧ CellLe le c w.value

theorem GoodWrite.grows (hj : core.Joins le) (hg : Grows le new new') (hclock : clock ≤ clock')
    (h : GoodWrite core le new clock w) : GoodWrite core le new' clock' w := by
  refine ⟨h.ours.mono hclock, h.sound.imp_right ?_⟩
  rintro ⟨c, hknows, hle⟩
  exact ⟨c, hknows.grows hj hg, hle⟩

/-- The destination's rows are in order, and nothing but what moves have written. -/
structure NewOK (core : Core D V) (clock : ℕ) (new : Edge D V P) : Prop where
  ok : new.feed.OK
  cells : ∀ k e, new.find k = some e → OurCell core clock k e.value

theorem openAs_of_named (h : c.Named core k) : openAs core k c = c := by
  cases c with
  | row r => exact if_pos h
  | newer d p => exact if_pos h
  | _ => rfl

theorem stored_of_good (h : GoodWrite core le new clock w) : stored core w = w := by
  unfold stored
  rw [openAs_of_named h.ours.1]

theorem map_stored_of_good (h : ∀ w ∈ ws, GoodWrite core le new clock w) :
    ws.map (stored core) = ws :=
  (List.map_congr_left fun w hw => stored_of_good (h w hw)).trans (List.map_id _)

/-- What the answer to a batch tells of one of its writes. -/
def AnswerKnows (core : Core D V) (le : Row D V → Row D V → Prop) (new : Edge D V P) (clock : ℕ)
    (applied : List (String × ℕ)) (conflicts : List (String × Conflict D V P)) (w : Write D V P) : Prop :=
  match Assoc.get applied w.key with
  | some seq => Knows le new w.key seq w.value
  | none => ∀ entry, Assoc.get conflicts w.key = some (.held entry) →
    Knows le new w.key entry.seq entry.value ∧ OurCell core clock w.key entry.value

theorem AnswerKnows.grows (hj : core.Joins le) (hg : Grows le new new')
    (hclock : clock ≤ clock') {applied : List (String × ℕ)} {conflicts : List (String × Conflict D V P)}
    (h : AnswerKnows core le new clock applied conflicts w) :
    AnswerKnows core le new' clock' applied conflicts w := by
  unfold AnswerKnows at h ⊢
  cases happlied : Assoc.get applied w.key with
  | some seq =>
    rw [happlied] at h
    exact h.grows hj hg
  | none =>
    rw [happlied] at h
    exact fun entry hentry => ⟨(h entry hentry).1.grows hj hg, (h entry hentry).2.mono hclock⟩

/-- The base of a write that is taken is the sequence of what it replaces. -/
theorem seqAt_eq {e : Feed.Entry String (Cell D V P)} (h : feed.find k = some e) :
    feed.seqAt k = e.seq := by
  simp [Feed.seqAt, h]

theorem get_conflicts (landing : Landing) (l : List (String × Option (Feed.Entry String (Cell D V P))))
    (k : String) : Assoc.get (l.map fun (k, held) => (k, conflictOf landing k held)) k =
      (Assoc.get l k).map (conflictOf landing k) := by
  induction l with
  | nil => rfl
  | cons e l ih =>
    rw [List.map_cons, Assoc.get_cons, Assoc.get_cons, ih]
    by_cases he : e.1 = k
    · simp [he]
    · simp [he]

/-- A batch on the destination's rows: they grow, and the answer tells of each write. -/
theorem batch_grows {generation : ℕ} (hok : NewOK core clock (.live generation feed))
    (hgood : ∀ w ∈ ws, GoodWrite core le (.live generation feed) clock w) (hnodup : (ws.map Cas.Write.key).Nodup)
    (landing : Landing) :
    Grows le (.live generation feed) (.live generation (feed.batch ws).feed) ∧
      NewOK core clock (.live generation (feed.batch ws).feed) ∧
      ∀ w ∈ ws, AnswerKnows core le (.live generation (feed.batch ws).feed) clock (feed.batch ws).applied
        ((feed.batch ws).conflicts.map fun (k, held) => (k, conflictOf landing k held)) w := by
  have hfeed : feed.OK := hok.ok
  obtain ⟨hat, hoff⟩ := Feed.batch_at hfeed hnodup
  refine ⟨fun k e he => ?_, ⟨(Feed.batch_state feed hfeed ws).1, fun k e he => ?_⟩, fun w hw => ?_⟩
  · have hrow := Feed.find_some (show feed.find k = some e from he)
    by_cases hk : k ∈ ws.map Cas.Write.key
    · obtain ⟨w, hw, rfl⟩ := List.mem_map.mp hk
      cases hat w hw with
      | applied _ hbase hnew _ hfind =>
        refine ⟨_, hfind, ?_, fun heq => ?_, ?_⟩
        · exact (hfeed.le_head e hrow.1).trans hnew.le
        · have := hfeed.le_head e hrow.1
          simp only at heq
          omega
        · rw [seqAt_eq he] at hbase
          rcases (hgood w hw).sound with hzero | ⟨c, hknows, hcle⟩
          · have := hfeed.pos e hrow.1
            omega
          · obtain ⟨e', he', -, hsame, -⟩ := hknows
            rw [he] at he'
            cases he'
            rw [hsame hbase.symm]
            exact hcle
      | conflict _ hfind =>
        exact ⟨e, hfind.trans he, le_rfl, fun _ => rfl, .inl rfl⟩
    · exact ⟨e, (hoff k hk).1.trans he, le_rfl, fun _ => rfl, .inl rfl⟩
  · by_cases hk : k ∈ ws.map Cas.Write.key
    · obtain ⟨w, hw, rfl⟩ := List.mem_map.mp hk
      cases hat w hw with
      | applied _ _ _ _ hfind =>
        have heq := hfind.symm.trans he
        cases heq
        exact (hgood w hw).ours
      | conflict _ hfind => exact hok.cells _ e (hfind.symm.trans he)
    · exact hok.cells k e ((hoff k hk).1.symm.trans he)
  · unfold AnswerKnows
    cases hat w hw with
    | applied _ _ _ _ hfind happlied =>
      rw [happlied]
      exact ⟨_, hfind, le_rfl, fun _ => rfl, .inl rfl⟩
    | conflict hbase hfind happlied hconflict =>
      rw [happlied]
      intro entry hentry
      rw [get_conflicts, hconflict, Option.map_some, Option.some.injEq] at hentry
      cases hheld : feed.find w.key with
      | none =>
        rw [hheld] at hentry
        cases hentry
      | some e =>
        rw [hheld] at hentry
        unfold conflictOf at hentry
        split_ifs at hentry
        cases hentry
        exact ⟨⟨entry, hfind.trans hheld, le_rfl, fun _ => rfl, .inl rfl⟩, hok.cells _ entry hheld⟩

/-- What one request makes of the destination, and what its answer tells. -/
structure ServedNew (core : Core D V) (le : Row D V → Row D V → Prop) (clock : ℕ) (new : Edge D V P)
    (request : Request D V P) (served : Edge D V P × Response D V P) : Prop where
  ok : NewOK core clock served.1
  grows : ((∃ g b s, request = .delete g b s) ∧ served.1.Retired) ∨ Grows le new served.1
  retired : new.Retired → served.1 = new
  tells : ∀ g ws g' applied conflicts, request = .batch g ws → served.2 = .batch g' applied conflicts →
    ∀ w ∈ ws, AnswerKnows core le served.1 clock applied conflicts w

/-- A request that changes nothing and tells nothing. -/
theorem servedNew_same (hok : NewOK core clock new) (request : Request D V P) {response : Response D V P}
    (hresponse : ∀ g applied conflicts, response ≠ .batch g applied conflicts) :
    ServedNew core le clock new request (new, response) :=
  ⟨hok, .inr (Grows.refl new), fun _ => rfl, fun _ _ g applied conflicts _ h =>
    absurd h (hresponse g applied conflicts)⟩

theorem servedNew_batch {generation : ℕ} {g : Option ℕ} (hok : NewOK core clock (.live generation feed))
    (hgood : ∀ w ∈ ws, GoodWrite core le (.live generation feed) clock w) (hnodup : (ws.map Cas.Write.key).Nodup)
    (landing : Landing) :
    ServedNew core le clock (.live generation feed) (.batch g ws)
      (serveBatch core landing generation feed ws) := by
  obtain ⟨hgrows, hnew, htells⟩ := batch_grows hok hgood hnodup landing
  unfold serveBatch
  rw [map_stored_of_good hgood]
  refine ⟨hnew, .inr hgrows, nofun, fun g ws' g' applied conflicts hrequest hresponse => ?_⟩
  cases hrequest
  cases hresponse
  exact htells

theorem serve_new (hok : NewOK core clock new) {request : Request D V P}
    (hgood : ¬ new.Retired → ∀ g ws, request = .batch g ws → ∀ w ∈ ws, GoodWrite core le new clock w)
    (landing : Landing) : ServedNew core le clock new request (serve core new request landing) := by
  have hcases := serve_served core new request landing
  generalize serve core new request landing = served at hcases ⊢
  cases hcases with
  | started writes habsent hrequest hnodup =>
    subst habsent hrequest
    have hempty : NewOK core clock (.live landing.generation (Feed.empty : Store D V P)) :=
      ⟨Feed.empty_ok, nofun⟩
    have hgood' : ∀ w ∈ writes, GoodWrite core le (.live landing.generation Feed.empty) clock w := by
      intro w hw
      have h := hgood (by rintro ⟨s, l, h⟩; cases h) none writes rfl w hw
      refine ⟨h.ours, h.sound.imp_right ?_⟩
      rintro ⟨c, ⟨e, he, -⟩, -⟩
      cases he
    have hserved := servedNew_batch (g := none) hempty hgood' hnodup landing
    refine ⟨hserved.ok, .inr fun k e he => ?_, nofun, hserved.tells⟩
    cases he
  | batch g feed writes hlive hrequest hnodup =>
    subst hlive hrequest
    exact servedNew_batch hok (hgood (by rintro ⟨s, l, h⟩; cases h) _ writes rfl) hnodup landing
  | deleted g _ _ _ hlive hrequest =>
    subst hlive hrequest
    refine ⟨⟨hok.ok, nofun⟩, .inl ⟨⟨_, _, _, rfl⟩, _, _, rfl⟩,
      nofun, ?_⟩
    intro g ws g' applied conflicts hrequest
    cases hrequest
  | _ => exact servedNew_same hok request (by simp)

end DenEdge.Client
