import DenEdge.Base.Feed
import DenEdge.Client.Rows

/-!
# den-edge as its clients see it

One library on den-edge, as the requests of a browser meet it: absent, live under a generation, or retired with
the successor its deletion named. `serve` is one request landing; what den-edge may decide for reasons of its own
(how many rows a page has, which conflicts leave their value out, an error) is in the `Landing`.

A live library's rows are a `Feed`, so a batch is a compare-and-set on each row's sequence (`Feed.batch_state`).
-/

namespace DenEdge.Client

variable {D V P : Type}

abbrev Store (D V P : Type) := Feed String (Cell D V P)

abbrev Write (D V P : Type) := Cas.Write String (Cell D V P)

/-- A library as den-edge has it. -/
inductive Edge (D V P : Type) where
  | absent
  | live (generation : ℕ) (feed : Store D V P)
  /-- Retired; `last` is what it held then, which den-edge no longer has. -/
  | retired (successor : Option String) (last : Store D V P)
  deriving DecidableEq

/-- The rows of a library that is live, or that it was retired with. -/
def Edge.feed : Edge D V P → Store D V P
  | .absent => Feed.empty
  | .live _ feed => feed
  | .retired _ last => last

/-- The rows of a library that is live. -/
def Edge.find : Edge D V P → String → Option (Feed.Entry String (Cell D V P))
  | .live _ feed, k => feed.find k
  | _, _ => none

/-- What the browser asks of a library. -/
inductive Request (D V P : Type) where
  | changes (since : ℕ)
  /-- `generation` is what `x-den-generation` names; `none` is `0`, no library read yet. -/
  | batch (generation : Option ℕ) (writes : List (Write D V P))
  | delete (generation : Option ℕ) (base : Option ℕ) (successor : Option String)

/-- What den-edge found in a write's way. -/
inductive Conflict (D V P : Type) where
  | absent
  | omitted (seq : ℕ)
  | held (entry : Feed.Entry String (Cell D V P))

inductive Response (D V P : Type) where
  | page (generation : ℕ) (page : Feed.Page String (Cell D V P))
  | batch (generation : ℕ) (applied : List (String × ℕ)) (conflicts : List (String × Conflict D V P))
  | deleted
  /-- `409 head_changed` or `409 generation_changed` -/
  | changed
  /-- `410 library_moved`, with the successor on record. -/
  | gone (successor : Option String)
  /-- `404` -/
  | missing
  /-- Any other refusal; nothing was changed. -/
  | error

/-- What den-edge decides of a request that lands. -/
structure Landing where
  refuse : Bool
  /-- A page holds one more row than this, as far as there are rows. -/
  take : ℕ
  /-- The conflicts whose value is left out of the answer. -/
  omitted : List String
  /-- The generation of a library that is started. -/
  generation : ℕ

variable (core : Core D V)

/-- A write as den-edge stores it and as it opens again. -/
def stored (w : Write D V P) : Write D V P := { w with value := openAs core w.key w.value }

def conflictOf (landing : Landing) (k : String) : Option (Feed.Entry String (Cell D V P)) → Conflict D V P
  | none => .absent
  | some entry => if landing.omitted.contains k then .omitted entry.seq else .held entry

/-- A batch on the rows of a library, under its generation. -/
def serveBatch (landing : Landing) (generation : ℕ) (feed : Store D V P) (writes : List (Write D V P)) :
    Edge D V P × Response D V P :=
  let outcome := feed.batch (writes.map (stored core))
  (.live generation outcome.feed,
    .batch generation outcome.applied (outcome.conflicts.map fun (k, held) => (k, conflictOf landing k held)))

/-- Whether a batch names each key once; den-edge refuses one that does not. -/
def Request.valid : Request D V P → Bool
  | .batch _ writes => decide (writes.map Cas.Write.key).Nodup
  | _ => true

/-- One request on a library. -/
def serve (edge : Edge D V P) (request : Request D V P) (landing : Landing) : Edge D V P × Response D V P :=
  if landing.refuse || !request.valid then (edge, .error)
  else match edge, request with
    | .retired successor _, _ => (edge, .gone successor)
    | .absent, .batch none writes => serveBatch core landing landing.generation Feed.empty writes
    | .absent, .batch (some _) _ => (edge, .changed)
    | .absent, _ => (edge, .missing)
    | .live generation feed, .changes since => (edge, .page generation (feed.page since (landing.take + 1)))
    | .live generation feed, .batch sent writes =>
      if sent ≠ some generation then (edge, .changed) else serveBatch core landing generation feed writes
    | .live generation feed, .delete sent base successor =>
      if sent ≠ some generation then (edge, .changed)
      else if base.any (· ≠ feed.head) then (edge, .changed)
      else (.retired successor feed, .deleted)

/-! ## What a request can do -/

/-- What a request can do, and be answered. -/
inductive Served (edge : Edge D V P) (request : Request D V P) (landing : Landing) :
    Edge D V P × Response D V P → Prop where
  | error : Served edge request landing (edge, .error)
  | gone (s last) (h : edge = .retired s last) : Served edge request landing (edge, .gone s)
  | missing (h : edge = .absent) : Served edge request landing (edge, .missing)
  | changed (hstands : ∀ s last, edge ≠ .retired s last)
      (h : ∀ g feed base s, edge = .live g feed → request = .delete (some g) base s → base.any (· ≠ feed.head)) :
      Served edge request landing (edge, .changed)
  | page (g feed since) (hlive : edge = .live g feed) (hrequest : request = .changes since) :
      Served edge request landing (edge, .page g (feed.page since (landing.take + 1)))
  | started (writes) (habsent : edge = .absent) (hrequest : request = .batch none writes)
      (hnodup : (writes.map Cas.Write.key).Nodup) :
      Served edge request landing (serveBatch core landing landing.generation Feed.empty writes)
  | batch (g feed writes) (hlive : edge = .live g feed) (hrequest : request = .batch (some g) writes)
      (hnodup : (writes.map Cas.Write.key).Nodup) :
      Served edge request landing (serveBatch core landing g feed writes)
  | deleted (g feed base s) (hlive : edge = .live g feed) (hrequest : request = .delete (some g) base s)
      (hbase : base.any (· ≠ feed.head) = false) : Served edge request landing (.retired s feed, .deleted)

theorem serve_served (edge : Edge D V P) (request : Request D V P) (landing : Landing) :
    Served core edge request landing (serve core edge request landing) := by
  unfold serve
  split
  · exact .error
  rename_i hvalid
  have hnodup : ∀ g ws, request = .batch g ws → (ws.map Cas.Write.key).Nodup := by
    rintro g ws rfl
    simp only [Request.valid, Bool.or_eq_true, Bool.not_eq_true', decide_eq_false_iff_not, not_or,
      not_not] at hvalid
    exact hvalid.2
  split
  · exact .gone _ _ rfl
  · exact .started _ rfl rfl (hnodup _ _ rfl)
  · exact .changed (by simp) nofun
  · exact .missing rfl
  · exact .page _ _ _ rfl rfl
  · split_ifs with hsent
    · exact .changed (by simp) nofun
    · exact .batch _ _ _ rfl (by rw [not_not.mp hsent]) (hnodup _ _ rfl)
  · split_ifs with hsent hbase
    · refine .changed (by simp) fun g feed base s hlive hdelete => ?_
      cases hlive
      cases hdelete
      exact absurd rfl hsent
    · refine .changed (by simp) fun g feed base s hlive hdelete => ?_
      cases hlive
      cases hdelete
      exact hbase
    · exact .deleted _ _ _ _ rfl (by rw [not_not.mp hsent]) (by simpa using hbase)

end DenEdge.Client
