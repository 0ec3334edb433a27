import DenEdge.Client.MoveTask
import DenEdge.Client.Source

/-!
# The invariant of a move

A move commits when the deletion of the old library is on its way and would still be taken (`World.committed`). Up
to then the destination may be given up; from then on its rows must be there, and nothing may delete it.

* `Inv`: what holds between any two events: what is on its way is sound, the task's own knowledge (`TaskOK`), what
  the answer that is on its way back tells (`AnswerOK`), and, once committed, that the library is moved.
* `Inv.evolves`: kept by what happens to the libraries and to requests on their way.
* `inv_answered`, `inv_begun`: kept by the task's own turns.
-/

namespace DenEdge.Client

variable {D V P : Type}

/-! ## Commitment -/

/-- A deletion of the old library that would be taken as it stands. -/
def Flight.viable (old : Edge D V P) (f : Flight D V P) : Bool :=
  match f.side, f.request, old with
  | .old, .delete sent base _, .live g feed => sent = some g && !base.any (· ≠ feed.head)
  | _, _, _ => false

/-- A deletion of the destination. -/
def Flight.forgets (f : Flight D V P) : Bool :=
  match f.side, f.request with
  | .new, .delete _ _ _ => true
  | _, _ => false

def Edge.isRetired : Edge D V P → Bool
  | .retired _ _ => true
  | _ => false

/-- The old library is retired, or a deletion of it that would be taken is on its way. -/
def World.committed (w : World D V P) : Bool := w.old.isRetired || w.flight.any (·.viable w.old)

def World.forgetting (w : World D V P) : Bool := w.flight.any Flight.forgets

theorem Edge.isRetired_iff {edge : Edge D V P} : edge.isRetired = true ↔ edge.Retired := by
  cases edge <;> simp [Edge.isRetired, Edge.Retired]

variable {f : Flight D V P}
variable {old : Edge D V P} {memory : Memory V}

theorem viable_iff :
    f.viable old = true ↔ f.side = .old ∧ ∃ g feed base s, old = .live g feed ∧
      f.request = .delete (some g) base s ∧ base.any (· ≠ feed.head) = false := by
  constructor
  · intro h
    unfold Flight.viable at h
    split at h
    · rename_i hside hrequest
      simp only [Bool.and_eq_true, decide_eq_true_eq, Bool.not_eq_true'] at h
      exact ⟨hside, _, _, _, _, rfl, by rw [hrequest, h.1], h.2⟩
    · cases h
  · rintro ⟨hside, g, feed, base, s, rfl, hrequest, hbase⟩
    simp only [Flight.viable, hside, hrequest, hbase, decide_true, Bool.not_false, Bool.and_self]

theorem committed_iff {w : World D V P} :
    w.committed = true ↔ w.old.Retired ∨ ∃ f ∈ w.flight, f.viable w.old = true := by
  simp only [World.committed, Bool.or_eq_true, Edge.isRetired_iff, List.any_eq_true]

theorem forgets_iff : f.forgets = true ↔ f.side = .new ∧ ∃ g b s, f.request = .delete g b s := by
  obtain ⟨id, side, request⟩ := f
  cases side <;> cases request <;> simp [Flight.forgets]

theorem forgetting_eq_false {w : World D V P} : w.forgetting = false ↔ ∀ f ∈ w.flight, f.forgets = false := by
  simp [World.forgetting]

variable (cfg : MoveConfig D V P) (le : Row D V → Row D V → Prop)

/-! ## What holds of a request on its way -/

/-- A request on the old library: a deletion names the destination, and a head the library has reached. -/
structure OldRequestOK (old : Edge D V P) (clock : ℕ) (request : Request D V P) : Prop where
  delete : ∀ g b s, request = .delete g b s → s = some cfg.tag ∧ ∃ g' h, g = some g' ∧ b = some h ∧
    Behind old g' h
  batch : ∀ g ws, request = .batch g ws → ∀ x ∈ ws, ∀ r, x.value = .row r → Timely clock r

structure RequestOK (w : World D V P) (side : Side) (request : Request D V P) : Prop where
  old : side = .old → OldRequestOK cfg w.old w.clock request
  new : side = .new → ¬ w.new.Retired → ∀ g ws, request = .batch g ws →
    ∀ x ∈ ws, GoodWrite cfg.core le w.new w.clock x

/-- The request a task waits for. -/
def Task.Sends : Task D V P → Side → Request D V P → Prop
  | .idle, _, _ => True
  | .reading _ _ since _ _, side, request => side = .old ∧ request = .changes since
  | .copying _ dest _ copy, side, request =>
    side = .new ∧ request = .batch dest.generation ((copy.chunks.head?.getD []).map Planned.write)
  | .deleting _ _ m, side, request =>
    side = .old ∧ request = .delete (some m.generation) (some m.head) (some cfg.tag)
  | .fencing _ _ _, side, request => side = .old ∧ ∃ g ws, request = .batch g ws
  | .checking _ _ _, side, request | .after _, side, request | .settling, side, request | .adopting,
    side, request =>
    side = .old ∧ request = .changes 0
  | .asking _, side, request => side = .new ∧ request = .changes 0
  | .forgetting _, side, request => side = .new ∧ ∃ g b s, request = .delete g b s

structure FlightOK (w : World D V P) (f : Flight D V P) : Prop where
  id_lt : f.id < w.next
  request : RequestOK cfg le w f.side f.request
  awaited : f.id = w.awaited → w.task.Sends cfg f.side f.request

/-! ## What holds of a task -/

/-- What a move knows up to its deletion of the library. -/
structure MoveOK (w : World D V P) (dest : Dest D V) : Prop where
  uncommitted : w.committed = false
  unforgetting : w.forgetting = false
  dest : DestOK cfg.core le w.new w.clock dest

/-- What a task knows where it waits. Up to the deletion nothing is committed; while a deletion of the destination
may be on its way, no copy is. -/
def TaskOK (w : World D V P) : Task D V P → Prop
  | .reading _ dest since entries generation =>
    MoveOK cfg le w dest ∧ Reads cfg.core w.clock w.old generation since entries
  | .copying _ dest m copy =>
    MoveOK cfg le w dest ∧ MovingOK cfg.core w.clock m ∧ ReadOK cfg.core cfg.device w.old m ∧
      CopyOK cfg.core le w.new w.clock m copy
  | .checking _ dest m =>
    MoveOK cfg le w dest ∧ ReadOK cfg.core cfg.device w.old m ∧ Copied cfg.core le w.new m [] []
  | .deleting _ dest _ =>
    w.forgetting = false ∧ DestOK cfg.core le w.new w.clock dest ∧
      ∀ f ∈ w.flight, f.viable w.old = true → f.id = w.awaited
  | .asking _ | .forgetting _ => w.committed = false
  | .idle | .after _ | .fencing _ _ _ | .settling | .adopting => True

/-- What an answer tells the task that waits for it. -/
def AnswerOK (w : World D V P) : Task D V P → Response D V P → Prop
  | .reading _ _ since entries generation, .page pageGeneration page =>
    SawPage cfg.core w.clock w.old generation since entries pageGeneration page
  | .copying _ _ _ copy, .batch _ applied conflicts =>
    ∀ p ∈ copy.chunks.head?.getD [], AnswerKnows cfg.core le w.new w.clock applied conflicts p.write
  | .checking _ _ _, .gone s | .after _, .gone s | .settling, .gone s => s = some cfg.tag
  | .deleting _ _ _, .changed => w.committed = false
  | .fencing _ _ _, .batch _ applied _ => (Assoc.get applied "set:devices").isSome → w.committed = false
  | _, _ => True

/-- **The invariant of a move.** -/
structure Inv (w : World D V P) : Prop where
  old : OldOK cfg.core w.clock w.old
  new : NewOK cfg.core w.clock w.new
  successor : ∀ s last, w.old = .retired s last → s = some cfg.tag
  flight : ∀ f ∈ w.flight, FlightOK cfg le w f
  task : TaskOK cfg le w w.task
  answer : ∀ r, w.answer = some r → AnswerOK cfg le w w.task r
  safe : w.committed = true → w.forgetting = false ∧ ∃ now, Moves cfg.core le cfg.device now w.old.feed w.new

/-! ## What happens around a task -/

/-- What happens to the libraries and to the requests on their way, the task waiting. -/
structure Evolves (w w' : World D V P) : Prop where
  clock : w.clock ≤ w'.clock
  old : OldLater w.old w'.old
  retires : w'.old.Retired → w.committed = true
  new : (w.forgetting = true ∧ w'.new.Retired) ∨ Grows le w.new w'.new
  stays : w.new.Retired → w'.new.Retired
  flight : ∀ f ∈ w'.flight, f ∈ w.flight
  task : w'.task = w.task
  next : w'.next = w.next
  awaited : w'.awaited = w.awaited

variable {cfg le} {w w' : World D V P}
variable {old' : Edge D V P} {clock since : ℕ} {request : Request D V P} {side : Side} {task : Task D V P}
    {m : Moving D V P}

/-- A deletion that would be taken now would have been taken before. -/
theorem viable_later (hl : OldLater old old')
    (hok : f.side = .old → OldRequestOK cfg old clock f.request) (h : f.viable old' = true) :
    f.viable old = true ∧ old = old' := by
  obtain ⟨hside, g, feed, base, s, hlive, hrequest, hbase⟩ := viable_iff.mp h
  obtain ⟨-, g', head, hg, rfl, hbehind⟩ := (hok hside).delete _ _ _ hrequest
  cases hg
  have hhead : head = feed.head := by simpa using hbase
  have hsame := hl.stands hbehind hlive hhead.symm
  exact ⟨viable_iff.mpr ⟨hside, g, feed, _, s, hsame, hrequest, hbase⟩, hsame.trans hlive.symm⟩

section

variable (he : Evolves le w w')
include he

theorem Evolves.committed (h : Inv cfg le w) (hc : w'.committed = true) :
    w.committed = true ∧ w'.old.feed = w.old.feed := by
  rcases committed_iff.mp hc with hretired | ⟨f, hf, hviable⟩
  · exact ⟨he.retires hretired, he.old.feed_of_retired hretired⟩
  · have hflight := he.flight f hf
    obtain ⟨hbefore, hsame⟩ := viable_later he.old (h.flight f hflight).request.old hviable
    exact ⟨committed_iff.mpr (.inr ⟨f, hflight, hbefore⟩), by rw [hsame]⟩

/-- What is not committed stays so. -/
theorem Evolves.uncommitted (h : Inv cfg le w) (hc : w.committed = false) :
    w'.committed = false := by
  by_contra htrue
  rw [Bool.not_eq_false] at htrue
  rw [(he.committed h htrue).1] at hc
  cases hc

theorem Evolves.unforgetting (hf : w.forgetting = false) : w'.forgetting = false :=
  forgetting_eq_false.mpr fun f hf' => forgetting_eq_false.mp hf f (he.flight f hf')

theorem Evolves.grows (hf : w.forgetting = false) : Grows le w.new w'.new := by
  rcases he.new with ⟨htrue, -⟩ | hgrows
  · rw [hf] at htrue
    cases htrue
  · exact hgrows

omit he in
theorem OldRequestOK.later {clock' : ℕ} (hl : OldLater old old')
    (hclock : clock ≤ clock') (h : OldRequestOK cfg old clock request) :
    OldRequestOK cfg old' clock' request := by
  refine ⟨fun g b s hdelete => ?_, fun g ws hbatch x hx r hr => (h.batch g ws hbatch x hx r hr).mono hclock⟩
  obtain ⟨hs, g', head, hg, hb, hbehind⟩ := h.delete g b s hdelete
  exact ⟨hs, g', head, hg, hb, hbehind.later hl⟩

theorem Evolves.requestOK (hj : cfg.core.Joins le)
    (hr : RequestOK cfg le w side request) : RequestOK cfg le w' side request := by
  refine ⟨fun hside => (hr.old hside).later he.old he.clock, fun hside hlive g ws hbatch x hx => ?_⟩
  have hgood := hr.new hside (fun hretired => hlive (he.stays hretired)) g ws hbatch x hx
  rcases he.new with ⟨-, hretired⟩ | hgrows
  · exact absurd hretired hlive
  · exact hgood.grows hj hgrows he.clock

theorem Evolves.moveOK (hj : cfg.core.Joins le) (h : Inv cfg le w) {dest : Dest D V} (hm : MoveOK cfg le w dest) :
    MoveOK cfg le w' dest :=
  ⟨he.uncommitted h hm.uncommitted, he.unforgetting hm.unforgetting,
    hm.dest.grows hj (he.grows hm.unforgetting) he.clock⟩

theorem Evolves.taskOK (hj : cfg.core.Joins le) (h : Inv cfg le w)
    (ht : TaskOK cfg le w task) : TaskOK cfg le w' task := by
  cases task with
  | reading =>
    obtain ⟨hmove, hreads⟩ := ht
    exact ⟨he.moveOK hj h hmove, hreads.later h.old he.old he.clock⟩
  | copying =>
    obtain ⟨hmove, hm, hread, hcopy⟩ := ht
    exact ⟨he.moveOK hj h hmove, hm.mono he.clock, hread.later he.old,
      hcopy.grows hj (he.grows hmove.unforgetting) he.clock⟩
  | checking =>
    obtain ⟨hmove, hread, hcopied⟩ := ht
    exact ⟨he.moveOK hj h hmove, hread.later he.old, hcopied.grows hj (he.grows hmove.unforgetting)⟩
  | deleting =>
    obtain ⟨hf, hdest, hviable⟩ := ht
    refine ⟨he.unforgetting hf, hdest.grows hj (he.grows hf) he.clock, fun f hf' hv => ?_⟩
    have hflight := he.flight f hf'
    rw [he.awaited]
    exact hviable f hflight (viable_later he.old (h.flight f hflight).request.old hv).1
  | asking | forgetting => exact he.uncommitted h ht
  | _ => trivial

theorem Evolves.answerOK (hj : cfg.core.Joins le) (h : Inv cfg le w) {r : Response D V P}
    (hr : AnswerOK cfg le w w.task r) : AnswerOK cfg le w' w'.task r := by
  have htask := h.task
  rw [he.task]
  generalize w.task = task at hr htask ⊢
  -- an answer that tells nothing tells nothing later
  cases task <;> cases r <;> try trivial
  case reading.page => exact SawPage.later he.old he.clock hr
  case copying.batch => exact fun p hp => (hr p hp).grows hj (he.grows htask.1.unforgetting) he.clock
  case deleting.changed => exact he.uncommitted h hr
  case fencing.batch => exact fun happlied => he.uncommitted h (hr happlied)

/-- **What happens around a task keeps the invariant.** -/
theorem Inv.evolves (hj : cfg.core.Joins le) (h : Inv cfg le w)
    (hold : OldOK cfg.core w'.clock w'.old) (hnew : NewOK cfg.core w'.clock w'.new)
    (hsuccessor : ∀ s last, w'.old = .retired s last → s = some cfg.tag)
    (hanswer : ∀ r, w'.answer = some r → AnswerOK cfg le w' w'.task r) : Inv cfg le w' where
  old := hold
  new := hnew
  successor := hsuccessor
  flight := by
    intro f hf
    have hflight := h.flight f (he.flight f hf)
    refine ⟨he.next ▸ hflight.id_lt, he.requestOK hj hflight.request, fun hid => ?_⟩
    rw [he.task]
    exact hflight.awaited (hid.trans he.awaited)
  task := by
    rw [he.task]
    exact he.taskOK hj h h.task
  answer := hanswer
  safe := by
    intro hc
    obtain ⟨hbefore, hfeed⟩ := he.committed h hc
    obtain ⟨hf, now, hmoves⟩ := h.safe hbefore
    rw [hfeed]
    exact ⟨he.unforgetting hf, now, hmoves.grows hj (he.grows hf)⟩

end

/-! ## The task's own turns -/

variable {turn : Turn D V P}

theorem mem_take (h : f ∈ (w.take turn).flight) :
    f ∈ w.flight ∨ turn.send = some (f.side, f.request) ∧ f.id = w.next := by
  unfold World.take at h
  cases hsend : turn.send with
  | none =>
    simp only [hsend] at h
    exact .inl h
  | some =>
    simp only [hsend, List.mem_append, List.mem_singleton] at h
    rcases h with hflight | rfl
    · exact .inl hflight
    · exact .inr ⟨rfl, rfl⟩

theorem committed_take (hc : (w.take turn).committed = true) : w.committed = true ∨
    ∃ g b s, turn.send = some (.old, .delete g b s) ∧
      (⟨w.next, .old, .delete g b s⟩ : Flight D V P).viable w.old := by
  rcases committed_iff.mp hc with hretired | ⟨f, hf, hviable⟩
  · exact .inl (committed_iff.mpr (.inl hretired))
  · rcases mem_take hf with hflight | ⟨hsend, hid⟩
    · exact .inl (committed_iff.mpr (.inr ⟨f, hflight, hviable⟩))
    · obtain ⟨hside, g, feed, base, s, -, hrequest, -⟩ := viable_iff.mp hviable
      refine .inr ⟨some g, base, s, by rw [hsend, hside, hrequest], ?_⟩
      rw [← hside, ← hrequest]
      exact hviable

theorem uncommitted_take (hsend : ∀ g b s, turn.send ≠ some (.old, .delete g b s)) (hc : w.committed = false) :
    (w.take turn).committed = false := by
  by_contra htrue
  rw [Bool.not_eq_false] at htrue
  rcases committed_take htrue with hbefore | ⟨g, b, s, hdelete, -⟩
  · rw [hbefore] at hc
    cases hc
  · exact hsend g b s hdelete

theorem unforgetting_take (hsend : ∀ g b s, turn.send ≠ some (.new, .delete g b s)) (hf : w.forgetting = false) :
    (w.take turn).forgetting = false := by
  refine forgetting_eq_false.mpr fun f hmem => ?_
  rcases mem_take hmem with hflight | ⟨hsent, -⟩
  · exact forgetting_eq_false.mp hf f hflight
  · by_contra htrue
    rw [Bool.not_eq_false] at htrue
    obtain ⟨hside, g, b, s, hrequest⟩ := forgets_iff.mp htrue
    exact hsend g b s (by rw [hsent, hside, hrequest])

theorem MoveOK.take {dest : Dest D V} (h : MoveOK cfg le w dest)
    (hsend : ∀ side g b s, turn.send ≠ some (side, .delete g b s)) : MoveOK cfg le (w.take turn) dest :=
  ⟨uncommitted_take (hsend .old) h.uncommitted, unforgetting_take (hsend .new) h.unforgetting, h.dest⟩

/-- A turn keeps the invariant where what it sends is sound, its task knows enough, and what commits is moved. -/
theorem Inv.take (h : Inv cfg le w) (hsend : ∀ side request, turn.send = some (side, request) →
      turn.task.Sends cfg side request ∧ RequestOK cfg le w side request)
    (htask : TaskOK cfg le (w.take turn) turn.task) (hsafe : (w.take turn).committed = true →
      (w.take turn).forgetting = false ∧ ∃ now, Moves cfg.core le cfg.device now w.old.feed w.new) :
    Inv cfg le (w.take turn) where
  old := h.old
  new := h.new
  successor := h.successor
  flight := by
    intro f hf
    rcases mem_take hf with hflight | ⟨hsent, hid⟩
    · have hok := h.flight f hflight
      refine ⟨hok.id_lt.trans (Nat.lt_succ_self _), ⟨hok.request.old, hok.request.new⟩, fun hawaited => ?_⟩
      exact absurd hok.id_lt (hawaited ▸ lt_irrefl w.next)
    · obtain ⟨hsends, hrequest⟩ := hsend _ _ hsent
      exact ⟨hid ▸ Nat.lt_succ_self _, ⟨hrequest.old, hrequest.new⟩, fun _ => hsends⟩
  task := htask
  answer := nofun
  safe := hsafe

/-- A turn that deletes nothing. -/
theorem Inv.take_harmless (h : Inv cfg le w) (hdelete : ∀ side g b s, turn.send ≠ some (side, .delete g b s))
    (hsend : ∀ side request, turn.send = some (side, request) →
      turn.task.Sends cfg side request ∧ RequestOK cfg le w side request)
    (htask : TaskOK cfg le (w.take turn) turn.task) : Inv cfg le (w.take turn) := by
  refine h.take hsend htask fun hc => ?_
  rcases committed_take hc with hbefore | ⟨g, b, s, hsent, -⟩
  · obtain ⟨hf, hmoves⟩ := h.safe hbefore
    exact ⟨unforgetting_take (hdelete .new) hf, hmoves⟩
  · exact absurd hsent (hdelete .old g b s)

theorem requestOK_changes (side : Side) (since : ℕ) : RequestOK cfg le w side (.changes since) :=
  ⟨fun _ => ⟨nofun, nofun⟩,
    nofun⟩

variable {dest : Dest D V}

section

variable (h : Inv cfg le w)
include h

/-- A task that asks for changes next. -/
theorem Inv.asks (hsends : task.Sends cfg side (.changes since))
    (htask : TaskOK cfg le (w.take ⟨task, some (side, .changes since), none⟩) task) :
    Inv cfg le (w.take ⟨task, some (side, .changes since), none⟩) := by
  refine h.take_harmless (by simp) (fun side' request hsent => ?_) htask
  cases hsent
  exact ⟨hsends, requestOK_changes side since⟩

theorem Inv.reports (report : Report) : Inv cfg le (w.take (Turn.reports report)) :=
  h.take_harmless (by simp [Turn.reports]) (nofun) trivial

/-- While nothing is committed the destination may be deleted. -/
theorem Inv.forgets (hc : w.committed = false) (generation : Option ℕ) (report : Report) :
    Inv cfg le (w.take ⟨.forgetting report, some (.new, .delete generation none none), none⟩) := by
  have hstill :
      (w.take ⟨.forgetting report, some (.new, .delete generation none none), none⟩).committed = false :=
    uncommitted_take (by simp) hc
  refine h.take (fun side request hsent => ?_) hstill fun htrue => ?_
  · cases hsent
    exact ⟨⟨rfl, _, _, _, rfl⟩, ⟨nofun, nofun⟩⟩
  · rw [hstill] at htrue
    cases htrue

theorem Inv.abandons (hc : w.committed = false) (dest : Dest D V) (report : Report) :
    Inv cfg le (w.take (abandonReset dest report)) := by
  unfold abandonReset
  cases dest.generation with
  | none => exact h.asks ⟨rfl, rfl⟩ (uncommitted_take (by simp) hc)
  | some => exact h.forgets hc _ _

/-- The head of the library is to be moved on. -/
theorem Inv.fences
    (hmemory : ∀ v ∈ memory.devices, v.2.stamp.1 ≤ w.clock + FUTURE_TOLERANCE_MS) (dest : Dest D V)
    (report : Report) (left : ℕ) : Inv cfg le (w.take (fence cfg w.clock memory dest report left)) := by
  unfold fence
  cases left with
  | zero => exact h.reports _
  | succ =>
    split_ifs
    · exact h.reports _
    refine h.take_harmless (by simp) (fun side request hsent => ?_) trivial
    cases hsent
    refine ⟨⟨rfl, _, _, rfl⟩, ⟨fun _ => ⟨nofun, fun g ws hbatch x hx r hr => ?_⟩,
      nofun⟩⟩
    cases hbatch
    rw [List.mem_singleton.mp hx] at hr
    cases hr
    intro v hv
    rcases Assoc.mem_set hv with hold | rfl
    · exact hmemory v hold
    · exact Nat.le_add_right _ _

theorem Inv.rounds (hmove : MoveOK cfg le w dest) (memory : Memory V)
    (round : ℕ) : Inv cfg le (w.take (moveRound memory round dest)) := by
  unfold moveRound
  split_ifs
  · exact h.abandons hmove.uncommitted _ _
  split
  · exact h.abandons hmove.uncommitted _ _
  · exact h.asks ⟨rfl, rfl⟩ ⟨hmove.take (by simp), reads_start _ _⟩

/-- A copy goes on, ends, or is given up. -/
theorem Inv.copies (hmove : MoveOK cfg le w dest)
    (hm : MovingOK cfg.core w.clock m) (hread : ReadOK cfg.core cfg.device w.old m)
    {next : Except Bool (Copy D V P)}
    (hnext : next.Ends (fun done => done = true → Copied cfg.core le w.new m [] [])
      (CopyOK cfg.core le w.new w.clock m))
    (round : ℕ) : Inv cfg le (w.take (copyOn round dest m next)) := by
  unfold copyOn
  split
  · exact h.asks ⟨rfl, rfl⟩ ⟨hmove.take (by simp), hread, hnext rfl⟩
  · exact h.abandons hmove.uncommitted _ _
  · rename_i copy
    refine h.take_harmless (by simp) (fun side request hsent => ?_) ⟨hmove.take (by simp), hm, hread, hnext⟩
    cases hsent
    refine ⟨⟨rfl, rfl⟩, ⟨nofun, fun _ _ g ws hbatch x hx => ?_⟩⟩
    cases hbatch
    obtain ⟨p, hp, rfl⟩ := List.mem_map.mp hx
    cases hchunks : copy.chunks with
    | nil =>
      rw [hchunks] at hp
      cases hp
    | cons chunk =>
      rw [hchunks] at hp
      exact (CopyOK.planned hnext chunk (by simp [hchunks]) p hp).good

/-- Whose move a retired library's successor says it was: this one's. -/
theorem Inv.movesTo {s : Option String} (hs : s = some cfg.tag) (dest : Dest D V) :
    Inv cfg le (w.take (movedTo cfg dest s)) := by
  subst hs
  simp only [movedTo, if_true]
  exact h.reports _

/-- The library is to be deleted: where the deletion would be taken, all of it is moved. -/
theorem Inv.deletes (hmove : MoveOK cfg le w dest)
    (hread : ReadOK cfg.core cfg.device w.old m) (hcopied : Copied cfg.core le w.new m [] []) (round : ℕ) :
    Inv cfg le (w.take ⟨.deleting round dest m,
      some (.old, .delete (some m.generation) (some m.head) (some cfg.tag)), none⟩) := by
  refine h.take (fun side request hsent => ?_) ⟨unforgetting_take (by simp) hmove.unforgetting, hmove.dest,
    fun f hf hviable => ?_⟩ fun hc => ⟨unforgetting_take (by simp) hmove.unforgetting, ?_⟩
  · cases hsent
    refine ⟨⟨rfl, rfl⟩, ⟨fun _ => ⟨fun g b s hdelete => ?_, nofun⟩,
      nofun⟩⟩
    cases hdelete
    exact ⟨rfl, _, _, rfl, rfl, hread.behind⟩
  · rcases mem_take hf with hflight | ⟨-, hid⟩
    · -- nothing was committed before
      have hcommitted := committed_iff.mpr (.inr ⟨f, hflight, hviable⟩)
      rw [hmove.uncommitted] at hcommitted
      cases hcommitted
    · exact hid
  · rcases committed_take hc with hbefore | ⟨g, b, s, hsent, hviable⟩
    · rw [hmove.uncommitted] at hbefore
      cases hbefore
    · cases hsent
      obtain ⟨-, g, feed, base, s, hlive, hrequest, hbase⟩ := viable_iff.mp hviable
      cases hrequest
      have hhead : m.head = feed.head := by simpa using hbase
      rw [hlive]
      rcases hread _ feed hlive with hlt | ⟨-, hlt | ⟨-, now, entries, hcarries⟩⟩
      · exact absurd hlt (lt_irrefl _)
      · exact absurd hlt (by omega)
      · have hok : feed.OK := by simpa [hlive, Edge.feed] using h.old.rows.1
        exact ⟨now, moves_of_copied hok hcarries hcopied⟩

end

section Turns

variable [DecidableEq D] [DecidableEq V]

/-- A page of the library is taken. -/
theorem Inv.readsOn (hj : cfg.core.Joins le) (h : Inv cfg le w) (hmove : MoveOK cfg le w dest)
    {pageGeneration : ℕ} {entries : List (Feed.Entry String (Cell D V P))} {generation : Option ℕ}
    {page : Feed.Page String (Cell D V P)} (hreads : Reads cfg.core w.clock w.old generation since entries)
    (hsaw : SawPage cfg.core w.clock w.old generation since entries pageGeneration page) (round : ℕ) :
    Inv cfg le (w.take (readOn cfg w.clock round dest entries generation pageGeneration page)) := by
  unfold readOn
  split
  · exact h.abandons hmove.uncommitted _ _
  rename_i hany
  have hsame : generation.any (· ≠ pageGeneration) = false := by simpa using hany
  dsimp only
  split
  · rename_i last hmore hlast
    exact h.asks ⟨rfl, rfl⟩ ⟨hmove.take (by simp), hsaw.next hreads.sound hsame hlast⟩
  · rename_i hend
    split
    · exact h.abandons hmove.uncommitted _ _
    · rename_i m hm
      have hlast : page.more = true → page.entries = [] := by
        intro hmore
        by_contra hne
        obtain ⟨last, hlast⟩ := Option.isSome_iff_exists.mp (List.getLast?_isSome.mpr hne)
        exact hend last hmore hlast
      obtain ⟨hmoving, hread⟩ := hsaw.last hreads.sound hsame hlast hm
      exact h.copies hmove hmoving hread
        (beginRound_ok hj hmove.dest hmoving cfg.size (copied_start w.new m)) round

/-- **A task's turn keeps the invariant**, with an answer or without. -/
theorem inv_answered (hj : cfg.core.Joins le) (h : Inv cfg le w)
    (hmemory : ∀ v ∈ memory.devices, v.2.stamp.1 ≤ w.clock + FUTURE_TOLERANCE_MS)
    {answer : Option (Response D V P)} (hanswer : ∀ r, answer = some r → AnswerOK cfg le w w.task r) :
    Inv cfg le (w.take (answered cfg w.clock memory answer w.task)) := by
  have htask := h.task
  generalize w.task = task at htask hanswer ⊢
  unfold answered
  cases task with
  | idle => exact h.take_harmless (by simp) (nofun) trivial
  | reading round =>
    obtain ⟨hmove, hreads⟩ := htask
    simp only
    split
    · exact h.readsOn hj hmove hreads (hanswer _ rfl) round
    · exact h.abandons hmove.uncommitted _ _
  | copying round =>
    obtain ⟨⟨hc, hf, hdest⟩, hm, hread, hcopy⟩ := htask
    simp only
    split
    · exact h.reports _
    · split
      · rename_i dest' copy' htake
        obtain ⟨hdest', hcopy'⟩ := takeAnswer_ok hj hm hdest hcopy (hanswer _ rfl) htake
        unfold copyNext
        split_ifs
        · exact h.copies ⟨hc, hf, hdest'⟩ hm hread (beginRound_ok hj hdest' hm cfg.size hcopy'.copied) round
        · exact h.copies ⟨hc, hf, hdest'⟩ hm hread ((Except.ends_ok copy').mpr hcopy') round
      · exact h.abandons hc _ _
    · exact h.abandons hc _ _
  | checking round =>
    obtain ⟨hmove, hread, hcopied⟩ := htask
    simp only
    split
    · split_ifs
      · exact h.rounds hmove memory _
      · exact h.deletes hmove hread hcopied round
    · exact h.movesTo (hanswer _ rfl) _
    · exact h.abandons hmove.uncommitted _ _
  | deleting =>
    obtain ⟨hf, hdest, -⟩ := htask
    simp only
    split
    · exact h.reports _
    · exact h.rounds ⟨hanswer _ rfl, hf, hdest⟩ memory _
    · exact h.asks ⟨rfl, rfl⟩ trivial
  | after =>
    simp only
    split
    · exact h.fences hmemory _ _ _
    · exact h.movesTo (hanswer _ rfl) _
    · exact h.reports _
  | fencing =>
    simp only
    split
    · split_ifs with happlied
      · exact h.abandons (hanswer _ rfl happlied) _ _
      · exact h.fences hmemory _ _ _
    · exact h.fences hmemory _ _ _
  | settling =>
    simp only
    split
    · exact h.fences hmemory _ _ _
    · rename_i tag
      have htag : tag = cfg.tag := Option.some.inj (hanswer _ rfl)
      rw [if_pos htag]
      exact h.reports _
    · exact h.reports _
    · exact h.reports _
  | adopting =>
    simp only
    split <;> exact h.reports _
  | asking => exact h.forgets htask _ _
  | forgetting => exact h.reports _

end Turns

/-- A task's first turn keeps the invariant: a move's, where nothing is committed and nothing deletes the
destination. -/
theorem inv_begun (h : Inv cfg le w) {kind : TaskKind}
    (hmove : kind = .move → memory.writable = true → w.committed = false ∧ w.forgetting = false) :
    Inv cfg le (w.take (begun memory kind)) := by
  unfold begun
  cases kind with
  | move =>
    dsimp only
    split_ifs with hwritable
    · exact h.reports _
    · exact h.reports _
    · obtain ⟨hc, hf⟩ := hmove rfl (by simpa using hwritable)
      exact h.rounds ⟨hc, hf, destOK_new _ _⟩ memory 0
  | settle | adopt => exact h.asks ⟨rfl, rfl⟩ trivial

end DenEdge.Client
