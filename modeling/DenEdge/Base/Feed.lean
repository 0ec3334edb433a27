import DenEdge.Base.Assoc
import DenEdge.Base.Cas

/-!
# A feed of changes

A compare-and-set store read by its changes: the live rows in the order of their sequences, each write moving its
key's row to the end. A reader follows it by a cursor, a page at a time, while others write.

* `Feed.put`, `Feed.page`: one write, and one page of what is past a cursor.
* `Feed.Later`: what writes can have made of a feed.
* `Feed.Read`: what a reader has of a feed at a cursor; `Feed.Read.later`, `Feed.Read.page`: kept by writes and by
  reading on, so a reader that reached the end has every row (`Feed.Read.all`).
-/

/-- One live row. -/
structure Feed.Entry (K V : Type*) where
  key : K
  seq : ℕ
  value : V
  deriving DecidableEq

/-- The live rows in the order of their sequences, and the last sequence given. -/
structure Feed (K V : Type*) where
  rows : List (Feed.Entry K V)
  head : ℕ
  deriving DecidableEq

namespace Feed

variable {K V : Type*}

/-- A page: some of the rows past a cursor, in order, and whether there are more. -/
structure Page (K V : Type*) where
  entries : List (Entry K V)
  head : ℕ
  more : Bool

/-- The rows past a cursor. -/
def since (f : Feed K V) (cursor : ℕ) : List (Entry K V) := f.rows.filter (cursor < ·.seq)

/-- The first `take` rows past a cursor. -/
def page (f : Feed K V) (cursor take : ℕ) : Page K V where
  entries := (f.since cursor).take take
  head := f.head
  more := take < (f.since cursor).length

def empty : Feed K V := ⟨[], 0⟩

/-- Rows in the order of their sequences, which are positive and at most the head, and one row for each key. -/
structure OK (f : Feed K V) : Prop where
  sorted : f.rows.Pairwise (·.seq < ·.seq)
  pos : ∀ e ∈ f.rows, 1 ≤ e.seq
  le_head : ∀ e ∈ f.rows, e.seq ≤ f.head
  nodup : (f.rows.map Entry.key).Nodup

theorem empty_ok : OK (empty : Feed K V) := ⟨.nil, by simp [empty], by simp [empty], .nil⟩

variable {e : Entry K V} {f : Feed K V}

/-! ## Pages -/

variable {cursor take : ℕ}

theorem mem_since : e ∈ f.since cursor ↔ e ∈ f.rows ∧ cursor < e.seq := by
  simp [since]

theorem page_mem (h : e ∈ (f.page cursor take).entries) :
    e ∈ f.rows ∧ cursor < e.seq := mem_since.mp (List.mem_of_mem_take h)

theorem since_sorted (h : OK f) (cursor : ℕ) : (f.since cursor).Pairwise (·.seq < ·.seq) :=
  h.sorted.filter _

/-- A page holds every row up to each of its own. -/
theorem page_downward (h : OK f) {last : Entry K V} (he : e ∈ f.rows) (hcursor : cursor < e.seq)
    (hlast : last ∈ (f.page cursor take).entries) (hle : e.seq ≤ last.seq) :
    e ∈ (f.page cursor take).entries := by
  have hmem : e ∈ f.since cursor := mem_since.mpr ⟨he, hcursor⟩
  rw [← List.take_append_drop take (f.since cursor), List.mem_append] at hmem
  rcases hmem with htake | hdrop
  · exact htake
  · -- what a page leaves out comes after all it holds
    have hsorted := since_sorted h cursor
    rw [← List.take_append_drop take (f.since cursor), List.pairwise_append] at hsorted
    exact absurd (hsorted.2.2 last hlast e hdrop) (not_lt.mpr hle)

theorem page_all (hmore : (f.page cursor take).more = false) (he : e ∈ f.rows) (hcursor : cursor < e.seq) :
    e ∈ (f.page cursor take).entries := by
  have hlength : (f.since cursor).length ≤ take := by simpa [page] using hmore
  have : (f.page cursor take).entries = f.since cursor := List.take_of_length_le hlength
  rw [this]
  exact mem_since.mpr ⟨he, hcursor⟩

theorem page_nonempty (htake : 0 < take) (hmore : (f.page cursor take).more = true) :
    (f.page cursor take).entries ≠ [] := by
  have hlength : take < (f.since cursor).length := by simpa [page] using hmore
  intro hnil
  have := congrArg List.length hnil
  simp only [page, List.length_take, List.length_nil] at this
  omega

/-! ## Writes -/

variable [DecidableEq K]

def find (f : Feed K V) (k : K) : Option (Entry K V) := f.rows.find? (·.key = k)

/-- A write: the key's row moves to the end, at the next sequence. -/
def put (f : Feed K V) (k : K) (v : V) : Feed K V :=
  ⟨f.rows.filter (·.key ≠ k) ++ [⟨k, f.head + 1, v⟩], f.head + 1⟩

@[simp] theorem put_head (f : Feed K V) (k : K) (v : V) : (f.put k v).head = f.head + 1 := rfl

variable {k : K}

theorem mem_put {v : V} : e ∈ (f.put k v).rows ↔ (e ∈ f.rows ∧ e.key ≠ k) ∨ e = ⟨k, f.head + 1, v⟩ := by
  simp [put]

theorem OK.put (h : OK f) (k : K) (v : V) : OK (f.put k v) := by
  refine ⟨?_, ?_, ?_, ?_⟩
  · refine List.pairwise_append.mpr ⟨h.sorted.filter _, List.pairwise_singleton .., ?_⟩
    intro e he e' he'
    rw [List.mem_singleton.mp he']
    exact Nat.lt_succ_of_le (h.le_head e (List.mem_of_mem_filter he))
  · intro e he
    rcases mem_put.mp he with ⟨hrow, -⟩ | rfl
    · exact h.pos e hrow
    · exact Nat.succ_pos _
  · intro e he
    rcases mem_put.mp he with ⟨hrow, -⟩ | rfl
    · exact (h.le_head e hrow).trans (Nat.le_succ _)
    · exact le_rfl
  · refine List.nodup_map_snoc (h.nodup.sublist (List.filter_sublist.map _)) fun e he => ?_
    simpa using (List.mem_filter.mp he).2

theorem find_some (h : f.find k = some e) : e ∈ f.rows ∧ e.key = k :=
  ⟨List.mem_of_find?_eq_some h, by simpa using List.find?_some h⟩

theorem find_of_mem (h : OK f) (he : e ∈ f.rows) : f.find e.key = some e := List.find?_of_nodup_map h.nodup he

theorem find_put (f : Feed K V) (h : OK f) (k k' : K) (v : V) :
    (f.put k v).find k' = if k' = k then some ⟨k, f.head + 1, v⟩ else f.find k' := by
  have hok := h.put k v
  split_ifs with hk
  · subst hk
    exact find_of_mem hok (e := ⟨k', f.head + 1, v⟩) (mem_put.mpr (.inr rfl))
  · cases hf : f.find k' with
    | some e =>
      obtain ⟨hmem, rfl⟩ := find_some hf
      exact find_of_mem hok (mem_put.mpr (.inl ⟨hmem, hk⟩))
    | none =>
      refine List.find?_eq_none.mpr fun e he => ?_
      rcases mem_put.mp he with ⟨hmem, -⟩ | rfl
      · exact List.find?_eq_none.mp hf e hmem
      · simpa using Ne.symm hk

/-- The store a feed is of. -/
def state (f : Feed K V) : Cas.State K V := ⟨fun k => (f.find k).map fun e => (e.seq, e.value), f.head⟩

theorem state_put (f : Feed K V) (h : OK f) (k : K) (v : V) : (f.put k v).state = f.state.bump k v := by
  unfold state Cas.State.bump
  congr 1
  funext k'
  rw [find_put f h]
  by_cases hk : k' = k
  · subst hk
    simp
  · simp [hk]

/-! ## Batches -/

/-- The feed a batch leaves, the writes it took, and the rows it found in their way. -/
structure Outcome (K V : Type*) where
  feed : Feed K V
  applied : List (K × ℕ)
  conflicts : List (K × Option (Entry K V))

/-- The sequence a key's row is at, `0` where it has none. -/
def seqAt (f : Feed K V) (k : K) : ℕ := ((f.find k).map Entry.seq).getD 0

/-- One write of a batch, judged against the feed before the batch. -/
def write (before : Feed K V) (o : Outcome K V) (w : Cas.Write K V) : Outcome K V :=
  if before.seqAt w.key ≠ w.base then { o with conflicts := o.conflicts ++ [(w.key, before.find w.key)] }
  else {
    feed := o.feed.put w.key w.value
    applied := o.applied ++ [(w.key, o.feed.head + 1)]
    conflicts := o.conflicts }

def batch (f : Feed K V) (ws : List (Cas.Write K V)) : Outcome K V := ws.foldl (write f) ⟨f, [], []⟩

/-- A batch of a feed is the batch of its store. -/
theorem batch_state (f : Feed K V) (h : OK f) (ws : List (Cas.Write K V)) :
    OK (f.batch ws).feed ∧ (f.batch ws).feed.state = (Cas.batch f.state ws).state ∧
      (f.batch ws).applied = (Cas.batch f.state ws).applied := by
  have hseq : ∀ k, f.seqAt k = f.state.view.seq k := by
    intro k
    simp only [seqAt, Cas.View.seq, state, Option.map_map]
    rfl
  have hfold : ∀ (o : Outcome K V) (a : Cas.Outcome K V), OK o.feed → o.feed.state = a.state →
      o.applied = a.applied → OK (ws.foldl (write f) o).feed ∧
        (ws.foldl (write f) o).feed.state = (ws.foldl (Cas.write f.state.view) a).state ∧
        (ws.foldl (write f) o).applied = (ws.foldl (Cas.write f.state.view) a).applied := by
    induction ws with
    | nil => exact fun o a hok hstate happlied => ⟨hok, hstate, happlied⟩
    | cons w ws ih =>
      intro o a hok hstate happlied
      rw [List.foldl_cons, List.foldl_cons]
      by_cases hbase : f.seqAt w.key = w.base
      · have hhead : o.feed.head = a.state.head := by rw [← hstate]; rfl
        rw [write, Cas.write, ← hseq, if_neg (not_not.mpr hbase), if_neg (not_not.mpr hbase)]
        refine ih _ _ (hok.put _ _) ((state_put _ hok _ _).trans (by rw [hstate])) ?_
        simp [happlied, hhead]
      · rw [write, Cas.write, ← hseq, if_pos hbase, if_pos hbase]
        exact ih _ _ hok hstate happlied
  exact hfold _ _ h rfl rfl

/-! ## What others write while a reader reads -/

/-- What any number of writes can have made of a feed. -/
abbrev Later (f f' : Feed K V) : Prop := Relation.ReflTransGen (fun f f' => ∃ k v, f' = f.put k v) f f'

theorem Later.put (f : Feed K V) (k : K) (v : V) : Later f (f.put k v) := Relation.ReflTransGen.single ⟨k, v, rfl⟩

variable {f' : Feed K V}

theorem Later.ok (h : Later f f') (hok : OK f) : OK f' := by
  induction h with
  | refl => exact hok
  | tail _ hstep ih =>
    obtain ⟨k, v, rfl⟩ := hstep
    exact ih.put k v

theorem Later.head_le (h : Later f f') : f.head ≤ f'.head := by
  induction h with
  | refl => exact le_rfl
  | tail _ hstep ih =>
    obtain ⟨k, v, rfl⟩ := hstep
    exact ih.trans (Nat.le_succ _)

/-- A row of the later feed is a row of the earlier one, or past its head. -/
theorem Later.mem (h : Later f f') (he : e ∈ f'.rows) : e ∈ f.rows ∨ f.head < e.seq := by
  induction h with
  | refl => exact .inl he
  | tail hlater hstep ih =>
    obtain ⟨k, v, rfl⟩ := hstep
    rcases mem_put.mp he with ⟨hrow, -⟩ | rfl
    · exact ih hrow
    · exact .inr (Nat.lt_succ_of_le (Later.head_le hlater))

/-- A key keeps a row: the same one, or a newer. -/
theorem Later.find (h : Later f f') (hok : OK f) (he : f.find k = some e) :
    ∃ e', f'.find k = some e' ∧ (e' = e ∨ f.head < e'.seq) := by
  induction h with
  | refl => exact ⟨e, he, .inl rfl⟩
  | tail hlater hstep ih =>
    obtain ⟨k', v, rfl⟩ := hstep
    obtain ⟨e', he', hcases⟩ := ih
    rw [find_put _ (Later.ok hlater hok)]
    split_ifs with hk
    · exact ⟨_, rfl, .inr (Nat.lt_succ_of_le (Later.head_le hlater))⟩
    · exact ⟨e', he', hcases⟩

theorem Later.eq_of_head (h : Later f f') (hle : f'.head ≤ f.head) : f' = f := by
  rcases Relation.ReflTransGen.cases_tail h with rfl | ⟨mid, hmid, k, v, rfl⟩
  · rfl
  · have := Later.head_le hmid
    rw [put_head] at hle
    omega

theorem batch_later (f : Feed K V) (ws : List (Cas.Write K V)) : Later f (f.batch ws).feed := by
  refine List.foldlRecOn (motive := fun o => Later f o.feed) ws (write f) (b := ⟨f, [], []⟩) .refl
    fun o ho w _ => ?_
  unfold write
  split_ifs
  · exact ho
  · exact ho.tail ⟨_, _, rfl⟩

theorem batch_append_singleton (f : Feed K V) (ws : List (Cas.Write K V)) (w : Cas.Write K V) :
    f.batch (ws ++ [w]) = write f (f.batch ws) w := by
  simp [batch]

/-- What a batch does at the key of one of its writes. -/
inductive BatchAt (f : Feed K V) (o : Outcome K V) (w : Cas.Write K V) : Prop where
  | applied (seq : ℕ) (hbase : f.seqAt w.key = w.base) (hnew : f.head < seq) (hle : seq ≤ o.feed.head)
      (hfind : o.feed.find w.key = some ⟨w.key, seq, w.value⟩) (happlied : Assoc.get o.applied w.key = some seq)
  | conflict (hbase : f.seqAt w.key ≠ w.base) (hfind : o.feed.find w.key = f.find w.key)
      (happlied : Assoc.get o.applied w.key = none)
      (hconflict : Assoc.get o.conflicts w.key = some (f.find w.key))

/-- **What a batch does**, at the keys it names, each once, and off them. -/
theorem batch_at (hok : OK f) {ws : List (Cas.Write K V)} (hnodup : (ws.map Cas.Write.key).Nodup) :
    (∀ w ∈ ws, BatchAt f (f.batch ws) w) ∧
      ∀ k, k ∉ ws.map Cas.Write.key → (f.batch ws).feed.find k = f.find k ∧
        Assoc.get (f.batch ws).applied k = none ∧ Assoc.get (f.batch ws).conflicts k = none := by
  induction ws using List.reverseRecOn with
  | nil => exact ⟨by simp, fun k _ => ⟨rfl, rfl, rfl⟩⟩
  | append_singleton ws w ih =>
    rw [List.map_append, List.nodup_append] at hnodup
    obtain ⟨hat, hoff⟩ := ih hnodup.1
    have hw : w.key ∉ ws.map Cas.Write.key := fun hmem => hnodup.2.2 _ hmem _ (by simp) rfl
    obtain ⟨hfind, happlied, hconflicts⟩ := hoff w.key hw
    have hlater : f.head ≤ (f.batch ws).feed.head := Later.head_le (batch_later f ws)
    have hok' := (batch_state f hok ws).1
    have hne : ∀ w' ∈ ws, w'.key ≠ w.key := fun w' hold heq => hw (heq ▸ List.mem_map_of_mem hold)
    have hother : ∀ k, k ∉ (ws ++ [w]).map Cas.Write.key → k ≠ w.key ∧ k ∉ ws.map Cas.Write.key := by
      intro k hk
      rw [List.map_append, List.mem_append, not_or] at hk
      exact ⟨by simpa using hk.2, hk.1⟩
    rw [batch_append_singleton]
    by_cases hbase : f.seqAt w.key = w.base
    · rw [write, if_neg (not_not.mpr hbase)]
      have hput := find_put _ hok' w.key
      refine ⟨fun w' hw' => ?_, fun k hk => ?_⟩
      · rcases List.mem_snoc.mp hw' with hold | rfl
        · have hne := hne w' hold
          cases hat w' hold with
          | applied seq hb hn hl hf ha =>
            exact .applied seq hb hn (hl.trans (Nat.le_succ _)) (by rw [hput, if_neg hne, hf])
              (by rw [Assoc.get_snoc_of_ne hne, ha])
          | conflict hb hf ha hc =>
            exact .conflict hb (by rw [hput, if_neg hne, hf]) (by rw [Assoc.get_snoc_of_ne hne, ha]) hc
        · refine .applied ((f.batch ws).feed.head + 1) hbase (Nat.lt_succ_of_le hlater) le_rfl ?_ ?_
          · rw [hput, if_pos rfl]
          · rw [Assoc.get_append, happlied, Assoc.get_cons, if_pos rfl]
            rfl
      · obtain ⟨hne, hk⟩ := hother k hk
        obtain ⟨hf, ha, hc⟩ := hoff k hk
        exact ⟨by rw [hput, if_neg hne, hf], by rw [Assoc.get_snoc_of_ne hne, ha], hc⟩
    · rw [write, if_pos hbase]
      refine ⟨fun w' hw' => ?_, fun k hk => ?_⟩
      · rcases List.mem_snoc.mp hw' with hold | rfl
        · have hne := hne w' hold
          cases hat w' hold with
          | applied seq hb hn hl hf ha => exact .applied seq hb hn hl hf ha
          | conflict hb hf ha hc => exact .conflict hb hf ha (by rw [Assoc.get_snoc_of_ne hne, hc])
        · refine .conflict hbase hfind happlied ?_
          rw [Assoc.get_append, hconflicts, Assoc.get_cons, if_pos rfl]
          rfl
      · obtain ⟨hne, hk⟩ := hother k hk
        obtain ⟨hf, ha, hc⟩ := hoff k hk
        exact ⟨hf, ha, by rw [Assoc.get_snoc_of_ne hne, hc]⟩

/-- A batch that applied something moved the head on. -/
theorem batch_head (hok : OK f) {ws : List (Cas.Write K V)} (hnodup : (ws.map Cas.Write.key).Nodup)
    (h : (Assoc.get (f.batch ws).applied k).isSome) : f.head < (f.batch ws).feed.head := by
  obtain ⟨hat, hoff⟩ := batch_at hok hnodup
  by_cases hk : k ∈ ws.map Cas.Write.key
  · obtain ⟨w, hw, rfl⟩ := List.mem_map.mp hk
    cases hat w hw with
    | applied seq _ hnew hle => exact hnew.trans_le hle
    | conflict _ _ happlied =>
      rw [happlied] at h
      cases h
  · rw [(hoff k hk).2.1] at h
    cases h

/-! ## What a reader has -/

/-- The last row read of a key. -/
def lastRead (read : List (Entry K V)) (k : K) : Option (Entry K V) := read.reverse.find? (·.key = k)

/-- What a reader has at a cursor: the row of every key whose row is not past the cursor, and no key the feed
lacks. -/
structure Read (f : Feed K V) (cursor : ℕ) (read : List (Entry K V)) : Prop where
  le_head : cursor ≤ f.head
  covered : ∀ e ∈ f.rows, e.seq ≤ cursor → lastRead read e.key = some e
  bound : ∀ e ∈ read, (f.find e.key).isSome

theorem read_nil (f : Feed K V) (h : OK f) : Read f 0 [] where
  le_head := Nat.zero_le _
  covered := fun e he hseq => absurd (h.pos e he) (by omega)
  bound := by simp

variable {read : List (Entry K V)}

/-- What is written while a reader waits is past its cursor. -/
theorem Read.later (h : Read f cursor read) (hok : OK f) (hlater : Later f f') :
    Read f' cursor read where
  le_head := h.le_head.trans hlater.head_le
  covered := by
    intro e he hseq
    rcases hlater.mem he with hrow | hpast
    · exact h.covered e hrow hseq
    · exact absurd hpast (not_lt.mpr (hseq.trans h.le_head))
  bound := by
    intro e he
    obtain ⟨e', he'⟩ := Option.isSome_iff_exists.mp (h.bound e he)
    obtain ⟨e'', he'', -⟩ := hlater.find hok he'
    exact Option.isSome_iff_exists.mpr ⟨e'', he''⟩

theorem lastRead_append (read more : List (Entry K V)) (k : K) :
    lastRead (read ++ more) k = (lastRead more k).or (lastRead read k) := by
  simp [lastRead, List.find?_append]

theorem lastRead_of_mem (h : (read.map Entry.key).Nodup) (he : e ∈ read) : lastRead read e.key = some e := by
  have hnodup : (read.reverse.map Entry.key).Nodup := by
    rw [List.map_reverse]
    exact List.nodup_reverse.mpr h
  exact List.find?_of_nodup_map hnodup (List.mem_reverse.mpr he)

/-- **Reading a page on.** A reader up to a cursor that reads the page past it has what is up to any row it read,
and, where there are no more, everything. -/
theorem Read.page (h : Read f cursor read) (hok : OK f) {cursor' : ℕ} (hle : cursor' ≤ f.head)
    (hnext : (∃ last ∈ (f.page cursor take).entries, cursor' = last.seq) ∨ (f.page cursor take).more = false) :
    Read f cursor' (read ++ (f.page cursor take).entries) where
  le_head := hle
  covered := by
    have hnodup : ((f.page cursor take).entries.map Entry.key).Nodup :=
      hok.nodup.sublist (((List.take_sublist _ _).trans List.filter_sublist).map _)
    intro e he hseq
    rw [lastRead_append]
    by_cases hnew : cursor < e.seq
    · -- past the old cursor: the page has it
      have hmem : e ∈ (f.page cursor take).entries := by
        rcases hnext with ⟨last, hlast, rfl⟩ | hmore
        · exact page_downward hok he hnew hlast hseq
        · exact page_all hmore he hnew
      rw [lastRead_of_mem hnodup hmem]
      rfl
    · -- read before: the page has no row of its key
      have hnone : lastRead (f.page cursor take).entries e.key = none := by
        refine List.find?_eq_none.mpr fun e' he' => ?_
        obtain ⟨hrow, hpast⟩ := page_mem (List.mem_reverse.mp he')
        intro hkey
        have heq := List.inj_on_of_nodup_map hok.nodup hrow he (by simpa using hkey)
        rw [heq] at hpast
        exact hnew hpast
      rw [hnone]
      exact h.covered e he (not_lt.mp hnew)
  bound := by
    refine List.forall_mem_append.mpr ⟨h.bound, fun e he => ?_⟩
    rw [find_of_mem hok (page_mem he).1]
    rfl

/-- A reader up to the head has the row of every key. -/
theorem Read.all (h : Read f f.head read) (hok : OK f) (k : K) : lastRead read k = f.find k := by
  cases hf : f.find k with
  | some e =>
    obtain ⟨hmem, rfl⟩ := find_some hf
    exact h.covered e hmem (hok.le_head e hmem)
  | none =>
    refine List.find?_eq_none.mpr fun e he => ?_
    have hbound := h.bound e (List.mem_reverse.mp he)
    intro hkey
    rw [show e.key = k by simpa using hkey, hf] at hbound
    cases hbound

end Feed
