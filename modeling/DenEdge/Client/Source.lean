import DenEdge.Base.Except
import DenEdge.Client.Copying

/-!
# What is known of the library a move reads

Others write to the library while it is read, and it may be restored, so what a reader knows of it is about one
generation and up to one head (`Reads`, `ReadOK`). A move that carries what was read up to a head, and has copied
all of it, has moved the library as it stands at that head (`moves_of_copied`).
-/

namespace DenEdge.Client

variable {D V P : Type} {core : Core D V} {le : Row D V → Row D V → Prop}

/-! ## How the library changes -/

/-- A value under its name, of which no stamp is ahead of the clock. -/
def Sound (core : Core D V) (clock : ℕ) (k : String) (c : Cell D V P) : Prop :=
  c.Named core k ∧ ∀ r, c = .row r → Timely clock r

variable {c : Cell D V P} {clock clock' : ℕ} {k : String} {feed : Store D V P}

theorem Sound.mono (hclock : clock ≤ clock') (h : Sound core clock k c) : Sound core clock' k c :=
  ⟨h.1, fun r hr => (h.2 r hr).mono hclock⟩

/-- A value as it opens under a key. -/
theorem sound_openAs (h : ∀ r, c = .row r → Timely clock r) : Sound core clock k (openAs core k c) := by
  refine ⟨openAs_named core k c, fun r hr => h r ?_⟩
  unfold openAs at hr
  split at hr
  · split_ifs at hr
    exact hr
  · split_ifs at hr
  · exact hr

/-- Rows in order and sound. -/
def FeedOK (core : Core D V) (clock : ℕ) (feed : Store D V P) : Prop :=
  feed.OK ∧ ∀ e ∈ feed.rows, Sound core clock e.key e.value

theorem FeedOK.put (h : FeedOK core clock feed) (hc : Sound core clock k c) :
    FeedOK core clock (feed.put k c) := by
  refine ⟨h.1.put k c, fun e he => ?_⟩
  rcases Feed.mem_put.mp he with ⟨hrow, -⟩ | rfl
  · exact h.2 e hrow
  · exact hc

theorem FeedOK.batch (h : FeedOK core clock feed) {ws : List (Write D V P)}
    (hws : ∀ x ∈ ws, ∀ r, x.value = .row r → Timely clock r) :
    FeedOK core clock (feed.batch (ws.map (stored core))).feed := by
  refine List.foldlRecOn (motive := fun o => FeedOK core clock o.feed) _ (Feed.write feed) (b := ⟨feed, [], []⟩) h
    fun o ho w hw => ?_
  obtain ⟨w', hw', rfl⟩ := List.mem_map.mp hw
  unfold Feed.write
  split_ifs
  · exact ho
  · exact ho.put (sound_openAs (hws w' hw'))

/-- A library that has been started, its rows in order and sound. -/
structure OldOK (core : Core D V) (clock : ℕ) (old : Edge D V P) : Prop where
  started : old ≠ .absent
  rows : FeedOK core clock old.feed

/-- What writes, a restore and a deletion can make of a library. -/
inductive OldLater : Edge D V P → Edge D V P → Prop where
  | same (old) : OldLater old old
  | later {g : ℕ} {feed feed' : Store D V P} (h : Feed.Later feed feed') : OldLater (.live g feed) (.live g feed')
  | restored {g g' : ℕ} {feed feed' : Store D V P} (h : g < g') : OldLater (.live g feed) (.live g' feed')
  | retired {g : ℕ} {feed : Store D V P} (s) : OldLater (.live g feed) (.retired s feed)

/-- A head of a generation that the library, while it is live, has reached. -/
def Behind (old : Edge D V P) (g head : ℕ) : Prop :=
  ∀ g' feed, old = .live g' feed → g < g' ∨ g = g' ∧ head ≤ feed.head

variable {old old' : Edge D V P} {g head : ℕ}

/-- Something known of the rows of a generation that writes keep stays known. -/
theorem known_later (hl : OldLater old old') {known : Store D V P → Prop}
    (hknown : ∀ feed feed', Feed.Later feed feed' → old = .live g feed → known feed → known feed')
    (h : ∀ g' feed, old = .live g' feed → g < g' ∨ g = g' ∧ known feed) :
    ∀ g' feed, old' = .live g' feed → g < g' ∨ g = g' ∧ known feed := by
  intro g' feed' hlive
  cases hl with
  | same => exact h g' feed' hlive
  | later hlater =>
    cases hlive
    rcases h _ _ rfl with hg | ⟨rfl, hk⟩
    · exact .inl hg
    · exact .inr ⟨rfl, hknown _ _ hlater rfl hk⟩
  | restored hlt =>
    cases hlive
    rcases h _ _ rfl with hg | ⟨rfl, -⟩
    · exact .inl (hg.trans hlt)
    · exact .inl hlt
  | retired => cases hlive

theorem Behind.later (hl : OldLater old old') (h : Behind old g head) : Behind old' g head :=
  known_later hl (fun _ _ hlater _ hle => hle.trans (Feed.Later.head_le hlater)) h

/-- A library that stands where it stood before has not changed since. -/
theorem OldLater.stands (hl : OldLater old old') (h : Behind old g head) (hlive : old' = .live g feed)
    (hhead : feed.head = head) : old = .live g feed := by
  cases hl with
  | same => exact hlive
  | later hlater =>
    cases hlive
    rcases h _ _ rfl with hg | ⟨-, hle⟩
    · exact absurd hg (lt_irrefl _)
    · rw [Feed.Later.eq_of_head hlater (hhead ▸ hle)]
  | restored hlt =>
    cases hlive
    rcases h _ _ rfl with hg | ⟨rfl, -⟩
    · exact absurd (hg.trans hlt) (lt_irrefl _)
    · exact absurd hlt (lt_irrefl _)
  | retired => cases hlive

theorem OldLater.feed_of_retired (hl : OldLater old old') (h : old'.Retired) : old'.feed = old.feed := by
  obtain ⟨s, last, hlast⟩ := h
  cases hl with
  | same => rfl
  | later => cases hlast
  | restored => cases hlast
  | retired => rfl

/-! ## What a reader has -/

/-- A reader that has read up to a cursor, in one generation. -/
structure Reads (core : Core D V) (clock : ℕ) (old : Edge D V P) (generation : Option ℕ) (since : ℕ)
    (entries : List (Feed.Entry String (Cell D V P))) : Prop where
  start : generation = none → since = 0 ∧ entries = []
  read : ∀ g, generation = some g → ∀ g' feed, old = .live g' feed → g < g' ∨ g = g' ∧ feed.Read since entries
  sound : ∀ e ∈ entries, Sound core clock e.key e.value

theorem reads_start (old : Edge D V P) (clock : ℕ) : Reads core clock old none 0 [] :=
  ⟨fun _ => ⟨rfl, rfl⟩, nofun, nofun⟩

variable {entries : List (Feed.Entry String (Cell D V P))} {since : ℕ}
variable {generation : Option ℕ}

theorem Reads.later (hold : OldOK core clock old) (hl : OldLater old old') (hclock : clock ≤ clock')
    (h : Reads core clock old generation since entries) :
    Reads core clock' old' generation since entries := by
  refine ⟨h.start, fun g hg => known_later hl ?_ (h.read g hg), fun e he => (h.sound e he).mono hclock⟩
  intro feed feed' hlater hlive hread
  have hok : feed.OK := by simpa [hlive, Edge.feed] using hold.rows.1
  exact hread.later hok hlater

/-- A page that was answered: of the library's rows as they were then, when what had been read was of them. -/
structure SawPage (core : Core D V) (clock : ℕ) (old : Edge D V P) (generation : Option ℕ) (since : ℕ)
    (entries : List (Feed.Entry String (Cell D V P))) (pageGeneration : ℕ)
    (page : Feed.Page String (Cell D V P)) : Prop where
  saw : ∀ g' feed, old = .live g' feed → pageGeneration < g' ∨ pageGeneration = g' ∧ ∃ was take,
    Feed.OK was ∧ Feed.Later was feed ∧ page = was.page since (take + 1) ∧
      (generation.any (· ≠ pageGeneration) = false → was.Read since entries)
  sound : ∀ e ∈ page.entries, Sound core clock e.key e.value

variable {pageGeneration : ℕ} {page : Feed.Page String (Cell D V P)}

theorem SawPage.later (hl : OldLater old old') (hclock : clock ≤ clock')
    (h : SawPage core clock old generation since entries pageGeneration page) :
    SawPage core clock' old' generation since entries pageGeneration page := by
  refine ⟨known_later hl ?_ h.saw, fun e he => (h.sound e he).mono hclock⟩
  rintro feed feed' hlater - ⟨was, take, hok, hwas, hpage, hread⟩
  exact ⟨was, take, hok, hwas.trans hlater, hpage, hread⟩

/-- The page of a live library. -/
theorem Reads.saw (hold : OldOK core clock (.live g feed))
    (h : Reads core clock (.live g feed) generation since entries) (take : ℕ) :
    SawPage core clock (.live g feed) generation since entries g (feed.page since (take + 1)) := by
  refine ⟨fun g' feed' hlive => ?_, fun e he => hold.rows.2 e (Feed.page_mem he).1⟩
  cases hlive
  refine .inr ⟨rfl, feed, take, hold.rows.1, .refl, rfl, fun hsame => ?_⟩
  cases generation with
  | none =>
    obtain ⟨rfl, rfl⟩ := h.start rfl
    exact Feed.read_nil feed hold.rows.1
  | some g₀ =>
    have hg : g₀ = g := by simpa using hsame
    rcases h.read g₀ rfl g feed rfl with hlt | ⟨-, hread⟩
    · exact absurd hlt (by omega)
    · exact hread

/-- Reading on from a page that has more. -/
theorem SawPage.next
    {last : Feed.Entry String (Cell D V P)}
    (h : SawPage core clock old generation since entries pageGeneration page)
    (hentries : ∀ e ∈ entries, Sound core clock e.key e.value)
    (hsame : generation.any (· ≠ pageGeneration) = false) (hlast : page.entries.getLast? = some last) :
    Reads core clock old (some pageGeneration) last.seq (entries ++ page.entries) := by
  refine ⟨nofun, fun g hg g' feed hlive => ?_, List.forall_mem_append.mpr ⟨hentries, h.sound⟩⟩
  cases hg
  refine (h.saw g' feed hlive).imp_right ?_
  rintro ⟨rfl, was, take, hok, hlater, rfl, hread⟩
  have hmem := List.mem_of_getLast? hlast
  have hpage := (hread hsame).page hok (hok.le_head last (Feed.page_mem hmem).1) (.inl ⟨last, hmem, rfl⟩)
  exact ⟨rfl, hpage.later hok hlater⟩

/-! ## What a move of it carries -/

/-- A row as the move carries it. -/
def carriedRow (core : Core D V) (device : String) (now : ℕ) (c : Cell D V P) : Option (Row D V) :=
  (((carryEntry core device c).toOption.bind id).bind Sum.getLeft?).bind (resetAssistantRow core now)

/-- A newer document as the move carries it. -/
def carriedKept (core : Core D V) (device : String) (c : Cell D V P) : Option (String × D × P) :=
  ((carryEntry core device c).toOption.bind id).bind Sum.getRight?

variable {device : String} {m : Moving D V P} {now : ℕ}

theorem movingOf_ok {generation : ℕ} {cells : List (Cell D V P)}
    (h : movingOf core device now cells head generation = .ok m) :
    m.rows = cells.filterMap (carriedRow core device now) ∧ m.kept = cells.filterMap (carriedKept core device) ∧
      m.head = head ∧ m.generation = generation := by
  unfold movingOf at h
  split at h
  · cases h
  obtain ⟨carried, hcarried, heq⟩ := Except.bind_ok.mp h
  cases heq
  refine ⟨?_, Except.mapM_filterMap _ hcarried |>.trans ?_, rfl, rfl⟩
  · rw [Except.mapM_filterMap _ hcarried, List.filterMap_filterMap]
    refine List.filterMap_congr fun c _ => ?_
    unfold carriedRow
    cases (carryEntry core device c).toOption <;> rfl
  · refine List.filterMap_congr fun c _ => ?_
    unfold carriedKept
    cases (carryEntry core device c).toOption <;> rfl

theorem resetAssistantRow_some {r row : Row D V} (h : resetAssistantRow core now r = some row) :
    core.rowName row = core.rowName r ∧ core.newer row = core.newer r ∧ ∀ clock, Timely clock r →
      Timely clock row := by
  cases r with
  | doc d =>
    cases h
    exact ⟨rfl, rfl, fun _ ht => ht⟩
  | set s =>
    simp only [resetAssistantRow] at h
    split_ifs at h
    · cases h
      -- revoking keeps each grant's stamp
      refine ⟨rfl, rfl, fun clock ht v hv => ?_⟩
      obtain ⟨v', hv', rfl⟩ := List.mem_map.mp hv
      exact ht v' hv'
    · cases h
      exact ⟨rfl, rfl, fun _ ht => ht⟩

theorem carryEntry_row {r : Row D V} (hc : Sound core clock k c)
    (h : carryEntry core device c = .ok (some (.inl r))) :
    core.rowName r = k ∧ core.newer r = false ∧ Timely clock r := by
  cases c with
  | row row =>
    have htimely := hc.2 row rfl
    cases row with
    | doc d =>
      cases h
      exact ⟨hc.1.1, hc.1.2, trivial⟩
    | set s =>
      simp only [carryEntry] at h
      split_ifs at h
      · cases h
      · cases h
        exact ⟨hc.1.1, rfl, fun v hv => htimely v (List.mem_of_mem_filter hv)⟩
      · cases h
        exact ⟨hc.1.1, rfl, htimely⟩
  | _ => cases h

theorem carriedRow_some {row : Row D V} (hc : Sound core clock k c)
    (h : carriedRow core device now c = some row) :
    core.rowName row = k ∧ core.newer row = false ∧ Timely clock row := by
  unfold carriedRow at h
  obtain ⟨r, hr, hreset⟩ := Option.bind_eq_some_iff.mp h
  have hcarry : carryEntry core device c = .ok (some (.inl r)) := by
    rcases hce : carryEntry core device c with e | _ | r' | x
    · rw [hce] at hr
      cases hr
    · rw [hce] at hr
      cases hr
    · rw [hce] at hr
      cases hr
      rfl
    · rw [hce] at hr
      cases hr
  obtain ⟨hname, hnewer, htimely⟩ := carryEntry_row hc hcarry
  obtain ⟨hname', hnewer', htimely'⟩ := resetAssistantRow_some hreset
  exact ⟨hname'.trans hname, hnewer'.trans hnewer, htimely' clock htimely⟩

theorem carriedKept_some {x : String × D × P} (hc : c.Named core k) (h : carriedKept core device c = some x) :
    x.1 = k ∧ core.documentName x.2.1 = x.1 ∧ WIRE < core.format x.2.1 := by
  cases c with
  | newer d p =>
    cases h
    exact ⟨hc.1, rfl, hc.2⟩
  | row row =>
    cases row with
    | doc d => cases h
    | set s =>
      simp only [carriedKept, carryEntry] at h
      split_ifs at h <;> cases h
  | _ => cases h

/-- What was read sound is carried sound. -/
theorem movingOf_sound {generation : ℕ} (hentries : ∀ e ∈ entries, Sound core clock e.key e.value)
    (h : movingOf core device now (entries.map Feed.Entry.value) head generation = .ok m) :
    MovingOK core clock m := by
  obtain ⟨hrows, hkept, -⟩ := movingOf_ok h
  refine ⟨fun r hr => ?_, fun x hx => ?_⟩
  · rw [hrows, List.mem_filterMap] at hr
    obtain ⟨c, hc, hcarried⟩ := hr
    obtain ⟨e, he, rfl⟩ := List.mem_map.mp hc
    exact (carriedRow_some (hentries e he) hcarried).2
  · rw [hkept, List.mem_filterMap] at hx
    obtain ⟨c, hc, hcarried⟩ := hx
    obtain ⟨e, he, rfl⟩ := List.mem_map.mp hc
    exact (carriedKept_some (hentries e he).1 hcarried).2

/-- **The library is moved**: the destination has every row of it as a move at a time carries it, and a version of
every document of a newer format. -/
structure Moves (core : Core D V) (le : Row D V → Row D V → Prop) (device : String) (now : ℕ) (feed : Store D V P)
    (new : Edge D V P) : Prop where
  rows : ∀ k e row, feed.find k = some e → carriedRow core device now e.value = some row → Covered core le new row
  kept : ∀ k e x, feed.find k = some e → carriedKept core device e.value = some x → (new.find x.1).isSome

theorem Moves.grows (hj : core.Joins le) {new new' : Edge D V P} (hg : Grows le new new')
    (h : Moves core le device now feed new) : Moves core le device now feed new' :=
  ⟨fun k e row he hrow => (h.rows k e row he hrow).grows hj hg, fun k e x he hx => hg.found (h.kept k e x he hx)⟩

/-- A move that carries the rows of a library as they stand at its head. -/
structure Carries (core : Core D V) (device : String) (now : ℕ) (m : Moving D V P) (feed : Store D V P)
    (entries : List (Feed.Entry String (Cell D V P))) : Prop where
  moving : movingOf core device now (entries.map Feed.Entry.value) m.head m.generation = .ok m
  named : ∀ e ∈ entries, ∃ clock, Sound core clock e.key e.value
  read : feed.Read feed.head entries

/-- The last entry of a key is what is carried of it. -/
theorem get_carried {β : Type} {carry : Cell D V P → Option (String × β)} (hok : feed.OK)
    (hread : feed.Read feed.head entries) (hkey : ∀ e ∈ entries, ∀ x, carry e.value = some x → x.1 = e.key)
    {e : Feed.Entry String (Cell D V P)} (he : feed.find k = some e) {x : String × β}
    (hx : carry e.value = some x) : x ∈ Assoc.ofList ((entries.map Feed.Entry.value).filterMap carry) := by
  have hlast : entries.reverse.find? (·.key = k) = some e := (hread.all hok k).trans he
  have hname : x.1 = k :=
    (hkey e (List.mem_reverse.mp (List.mem_of_find?_eq_some hlast)) x hx).trans (Feed.find_some he).2
  refine Assoc.mem_of_get (k := x.1) ?_
  rw [Assoc.get_ofList, List.filterMap_map, ← List.filterMap_reverse, hname]
  exact Assoc.get_filterMap Feed.Entry.key (fun a ha => hkey a (List.mem_reverse.mp ha)) hlast (hname ▸ hx)

theorem moves_of_copied {new : Edge D V P} (hok : feed.OK) (h : Carries core device now m feed entries)
    (hcopied : Copied core le new m [] []) : Moves core le device now feed new := by
  obtain ⟨hrows, hkept, -⟩ := movingOf_ok h.moving
  refine ⟨fun k e row he hrow => ?_, fun k e x he hx => ?_⟩
  · have hmem : (core.rowName row, row) ∈ m.byName core := by
      rw [Moving.byName, hrows, List.map_filterMap]
      refine get_carried hok h.read (fun a ha x hx => ?_) he (by simp [hrow])
      obtain ⟨r, hr, rfl⟩ := Option.map_eq_some_iff.mp hx
      obtain ⟨clock, hsound⟩ := h.named a ha
      exact (carriedRow_some hsound hr).1
    rcases hcopied.moved _ hmem with hnil | hcovered
    · cases hnil
    · exact hcovered
  · have hmem : x ∈ m.keptByName := by
      rw [Moving.keptByName, hkept]
      refine get_carried hok h.read (fun a ha y hy => ?_) he hx
      obtain ⟨clock, hsound⟩ := h.named a ha
      exact (carriedKept_some hsound.1 hy).1
    rcases hcopied.movedKept _ hmem with hnil | hfound
    · cases hnil
    · exact hfound

/-- A move that carries what a library held when it stood at the move's head, in the move's generation. -/
def ReadOK (core : Core D V) (device : String) (old : Edge D V P) (m : Moving D V P) : Prop :=
  ∀ g feed, old = .live g feed → m.generation < g ∨ m.generation = g ∧
    (m.head < feed.head ∨ m.head = feed.head ∧ ∃ now entries, Carries core device now m feed entries)

theorem ReadOK.later (hl : OldLater old old') (h : ReadOK core device old m) : ReadOK core device old' m := by
  refine known_later hl ?_ h
  rintro feed feed' hlater - hknown
  have hle := Feed.Later.head_le hlater
  rcases hknown with hlt | ⟨heq, hcarries⟩
  · exact .inl (hlt.trans_le hle)
  · rcases hle.lt_or_eq with hlt | hhead
    · exact .inl (heq ▸ hlt)
    · rw [Feed.Later.eq_of_head hlater hhead.ge]
      exact .inr ⟨heq, hcarries⟩

theorem ReadOK.behind (h : ReadOK core device old m) : Behind old m.generation m.head := by
  intro g feed hlive
  refine (h g feed hlive).imp_right fun hg => ⟨hg.1, ?_⟩
  rcases hg.2 with hlt | ⟨heq, -⟩
  · exact hlt.le
  · exact heq.le

/-- The end of a read: a page with no more, or with nothing in it. -/
theorem SawPage.last (h : SawPage core clock old generation since entries pageGeneration page)
    (hentries : ∀ e ∈ entries, Sound core clock e.key e.value)
    (hsame : generation.any (· ≠ pageGeneration) = false) (hlast : page.more = true → page.entries = [])
    (hm : movingOf core device now ((entries ++ page.entries).map Feed.Entry.value) page.head
      pageGeneration = .ok m) :
    MovingOK core clock m ∧ ReadOK core device old m := by
  have hsound := List.forall_mem_append.mpr ⟨hentries, h.sound⟩
  obtain ⟨-, -, hhead, hgeneration⟩ := movingOf_ok hm
  refine ⟨movingOf_sound hsound hm, fun g feed hlive => ?_⟩
  rw [hgeneration]
  refine (h.saw g feed hlive).imp_right ?_
  rintro ⟨rfl, was, take, hok, hlater, rfl, hread⟩
  have hmore : (was.page since (take + 1)).more = false := by
    by_contra htrue
    rw [Bool.not_eq_false] at htrue
    exact Feed.page_nonempty (Nat.succ_pos take) htrue (hlast htrue)
  have hwas : was.Read was.head (entries ++ (was.page since (take + 1)).entries) :=
    (hread hsame).page hok le_rfl (.inr hmore)
  have hmhead : m.head = was.head := hhead
  refine ⟨rfl, ?_⟩
  rcases (Feed.Later.head_le hlater).lt_or_eq with hlt | heq
  · exact .inl (hmhead ▸ hlt)
  · have hfeed := Feed.Later.eq_of_head hlater heq.ge
    subst hfeed
    refine .inr ⟨hmhead, now, _, ⟨?_, fun e he => ⟨clock, hsound e he⟩, hwas⟩⟩
    rw [hhead, hgeneration]
    exact hm

end DenEdge.Client
