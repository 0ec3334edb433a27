import DenEdge.Receipts.Callback

/-!
# A capability delivers once

Each request keeps `Bound` at every file operation, whichever of them fail and wherever the process dies, and
drops no entry but by an acknowledgement, by age or with its library. The run theorem is `receipts_deliver_once`.
-/

namespace DenEdge.Receipts

open Storage

variable {sha : Digest} {drawn deleted : List String} {created : List Created} {clock now : ℕ} {files : Files}
  {library : String} {may : May Name File}

/-! ## Draining and acknowledging -/

theorem drain_keeps (h : Bound sha drawn deleted created clock files) (library : String) (now : ℕ) :
    Preserves may (files = ·) (drain library now) files :=
  Program.keeps_bind (loadQueue_keeps h rfl (fun _ => rfl) rfl)

/-- The binding to an acknowledged entry. -/
def Entry.accepted (sha : Digest) (e : Entry) : Accepted := ⟨sha.of e.sealed, e.seq⟩

/-- A record once it is bound to an entry. -/
def Callback.bindTo (sha : Digest) (e : Entry) (c : Callback) : Callback :=
  { c with accepted := some (e.accepted sha), bindingVersion := 1 }

/-- What `transfer` leaves, where no two entries are of one capability. -/
structure Transferred (sha : Digest) (l : List Entry) (table : List Callback) (changed : Bool)
    (table' : List Callback) (changed' : Bool) : Prop where
  hashes : table'.map Callback.hash = table.map Callback.hash
  origin : ∀ r' ∈ table', r' ∈ table ∨ ∃ r ∈ table, ∃ e ∈ l, e.callback = r.hash ∧ r' = r.bindTo sha e
  bound : ∀ r' ∈ table', ∀ e ∈ l, e.callback = r'.hash → r'.accepted = some (e.accepted sha)
  same : changed' = false → changed = false ∧ table' = table

theorem agrees {r : Callback} {e : Entry}
    (h : ¬ (r.accepted.any fun a => a.sealed ≠ sha.of e.sealed || a.seq ≠ e.seq) = true) :
    r.accepted = none ∨ r.accepted = some (e.accepted sha) := by
  cases ha : r.accepted with
  | none => exact .inl rfl
  | some a =>
    rw [ha] at h
    simp only [ne_eq, decide_not, Option.any_some, Bool.or_eq_true, Bool.not_eq_true',
      decide_eq_false_iff_not, not_or, not_not] at h
    right
    rw [Entry.accepted, ← h.1, ← h.2]

theorem transfer_spec {l : List Entry} {table table' : List Callback} {changed changed' : Bool}
    (hl : ∀ e ∈ l, ∀ e' ∈ l, e.callback = e'.callback → e = e') (hnodup : (table.map Callback.hash).Nodup)
    (h : transfer sha l table changed = some (table', changed')) :
    Transferred sha l table changed table' changed' := by
  induction l generalizing table changed with
  | nil =>
    obtain ⟨rfl, rfl⟩ := h
    refine ⟨rfl, fun r' hr' => .inl hr', ?_, fun hc => ⟨hc, rfl⟩⟩
    intro r' _ e he
    cases he
  | cons e rest ih =>
    have hone : ∀ e' ∈ rest, e'.callback = e.callback → e' = e := fun e' he' heq =>
      hl e' (List.mem_cons_of_mem _ he') e List.mem_cons_self heq
    have hl' : ∀ e ∈ rest, ∀ e' ∈ rest, e.callback = e'.callback → e = e' := fun e he e' he' heq =>
      hl e (List.mem_cons_of_mem _ he) e' (List.mem_cons_of_mem _ he') heq
    rw [transfer] at h
    cases hfind : table.find? (·.hash = e.callback) with
    | none =>
      simp only [hfind] at h
      have hrest := ih hl' hnodup h
      refine ⟨hrest.hashes, ?_, ?_, hrest.same⟩
      · intro r' hr'
        rcases hrest.origin r' hr' with hold | ⟨r, hr, e', he', hbind⟩
        · exact .inl hold
        · exact .inr ⟨r, hr, e', List.mem_cons_of_mem _ he', hbind⟩
      · intro r' hr' e' he' hcallback
        rcases List.mem_cons.mp he' with rfl | he'
        · -- the table has no capability of the entry
          have hmem : r'.hash ∈ table.map Callback.hash := hrest.hashes ▸ List.mem_map_of_mem hr'
          obtain ⟨r, hr, hhash⟩ := List.mem_map.mp hmem
          have hnone := List.find?_eq_none.mp hfind r hr
          exact absurd (by simpa using hhash.trans hcallback.symm) hnone
        · exact hrest.bound r' hr' e' he' hcallback
    | some r₀ =>
      simp only [hfind] at h
      have hr₀ := List.mem_of_find?_eq_some hfind
      have hhash₀ : r₀.hash = e.callback := by simpa using List.find?_some hfind
      split_ifs at h with hagree
      have hsettled := agrees hagree
      have hfound : ∀ r ∈ table, r.hash = e.callback → r = r₀ := fun r hr hhash =>
        List.inj_on_of_nodup_map hnodup hr hr₀ (hhash.trans hhash₀.symm)
      have hmap := changeFirst_eq_map hnodup e.callback (Callback.bindTo sha e)
      have hhashes : (changeFirst e.callback (Callback.bindTo sha e) table).map Callback.hash =
          table.map Callback.hash :=
        hashes_changeFirst (g := Callback.bindTo sha e) (fun _ => rfl) table
      have hrest := ih hl' (hhashes ▸ hnodup) h
      have hrestHashes := hrest.hashes.trans hhashes
      -- a record of the table so far is one of before, or the one that was found
      have horigin : ∀ r ∈ changeFirst e.callback (Callback.bindTo sha e) table,
          (r ∈ table ∧ r.hash ≠ e.callback) ∨ r = r₀.bindTo sha e := by
        intro r hr
        rw [hmap] at hr
        obtain ⟨r₁, hr₁, rfl⟩ := List.mem_map.mp hr
        split_ifs with hhash₁
        · rw [hfound r₁ hr₁ hhash₁]
          exact .inr rfl
        · exact .inl ⟨hr₁, hhash₁⟩
      refine ⟨hrestHashes, ?_, ?_, ?_⟩
      · intro r' hr'
        rcases hrest.origin r' hr' with hold | ⟨r, hr, e', he', hcallback, rfl⟩
        · rcases horigin r' hold with ⟨hold, -⟩ | rfl
          · exact .inl hold
          · exact .inr ⟨r₀, hr₀, e, List.mem_cons_self, hhash₀.symm, rfl⟩
        · rcases horigin r hr with ⟨hold, -⟩ | rfl
          · exact .inr ⟨r, hold, e', List.mem_cons_of_mem _ he', hcallback, rfl⟩
          · rw [hone e' he' (hcallback.trans hhash₀)]
            exact .inr ⟨r₀, hr₀, e, List.mem_cons_self, hhash₀.symm, rfl⟩
      · intro r' hr' e' he' hcallback
        rcases List.mem_cons.mp he' with rfl | he'
        · rcases hrest.origin r' hr' with hold | ⟨r, hr, e, he, hcallback', rfl⟩
          · rcases horigin r' hold with ⟨-, hne⟩ | rfl
            · exact absurd hcallback.symm hne
            · rfl
          · rw [hone e he (hcallback'.trans hcallback.symm)]
            rfl
        · exact hrest.bound r' hr' e' he' hcallback
      · intro hunchanged
        obtain ⟨hor, hsame⟩ := hrest.same hunchanged
        rw [Bool.or_eq_false_iff] at hor
        have hlacks : r₀.accepted ≠ none ∧ r₀.bindingVersion = 1 := by simpa [Callback.lacks] using hor.2
        have hbound := hsettled.resolve_left hlacks.1
        have hsame₀ : r₀.bindTo sha e = r₀ := by rw [Callback.bindTo, ← hbound, ← hlacks.2]
        have hid : ∀ r ∈ table, (if r.hash = e.callback then r.bindTo sha e else r) = r := by
          intro r hr
          split_ifs with hhash
          · rw [hfound r hr hhash, hsame₀]
          · rfl
        exact ⟨hor.1, hsame.trans (hmap.trans ((List.map_congr_left hid).trans (List.map_id' _)))⟩

/-- What an acknowledgement leaves: nothing gone but what aged out and what is acknowledged. -/
def Acked (sha : Digest) (drawn deleted : List String) (created : List Created) (clock : ℕ) (files : Files)
    (library : String) (upTo : ℕ) (f : Files) : Prop :=
  Bound sha drawn deleted created clock f ∧ Kept clock (fun l e => l = library ∧ e.seq ≤ upTo) files f

theorem removeAcked_keeps {later upTo : ℕ} {f : Files} (hf : Bound sha drawn deleted created later f)
    (hqueues : ∀ l, queueOf f l = queueOf files l) (hnow : now ≤ later)
    (hbound : ∀ r ∈ tableOf f, ∀ e ∈ ((queueOf files library).at now).messages, e.seq ≤ upTo →
      e.callback = r.hash → r.accepted = some (e.accepted sha) ∨ r.expiresAt ≤ later) :
    Preserves may (Acked sha drawn deleted created later files library upTo)
      (removeAcked library ((queueOf files library).at now) upTo) f := by
  have hI : Acked sha drawn deleted created later files library upTo f := ⟨hf, kept_same hqueues⟩
  set q : Queue :=
    ⟨((queueOf files library).at now).next, ((queueOf files library).at now).messages.filter (upTo < ·.seq)⟩
    with hq
  have hmem : ∀ e, e ∈ q.messages ↔ e ∈ ((queueOf files library).at now).messages ∧ upTo < e.seq := by
    simp [hq]
  have hremoved : Bound sha drawn deleted created later (Assoc.set f (.queue library) (.queue q)) := by
    refine hf.requeue ?_ ?_ ?_
    · intro e he
      rw [hqueues library]
      exact (mem_at.mp ((hmem e).mp he).1).1
    · rw [hqueues library]
      exact le_max_left _ _
    · intro r hr c hc hcallback _ hin hout
      rw [hqueues library] at hin
      by_cases haged : now < saturatingAdd c.entry.receivedAt TTL_MS
      · have hat := mem_at.mpr ⟨hin, haged⟩
        have hle : c.entry.seq ≤ upTo := not_lt.mp fun hlt => hout ((hmem c.entry).mpr ⟨hat, hlt⟩)
        exact hbound r hr c.entry hat hle hcallback
      · exact .inr (hf.aged hr hc hcallback hnow haged)
  have hkept : Kept later (fun l e => l = library ∧ e.seq ≤ upTo) files
      (Assoc.set f (.queue library) (.queue q)) := by
    refine kept_set hqueues fun e he => ?_
    by_cases haged : now < saturatingAdd e.receivedAt TTL_MS
    · by_cases hle : e.seq ≤ upTo
      · exact .inr (.inr ⟨rfl, hle⟩)
      · exact .inl ((hmem e).mpr ⟨mem_at.mpr ⟨he, haged⟩, not_le.mp hle⟩)
    · exact .inr (.inl ((not_lt.mp haged).trans hnow))
  have hsaved : Acked sha drawn deleted created later files library upTo
      (Assoc.set f (.queue library) (.queue q)) :=
    ⟨hremoved, hkept⟩
  unfold removeAcked
  refine Program.keeps_bind (keeps_put trivial hI (fun _ => ⟨hsaved, ?_⟩) fun _ e => hI)
  exact keeps_sync trivial hsaved (fun _ => hsaved) fun _ e => hsaved

theorem ack_keeps {later : ℕ} (h : Bound sha drawn deleted created later files) (hnow : now ≤ later)
    (library : String) (upTo : ℕ) :
    Preserves may (Acked sha drawn deleted created later files library upTo)
      (ack sha library (some upTo) now later) files := by
  have hI : Acked sha drawn deleted created later files library upTo files := ⟨h, kept_same fun l => rfl⟩
  unfold ack
  refine Program.keeps_bind (loadQueue_keeps h hI (fun e => hI) ?_)
  simp only
  set removed := ((queueOf files library).at now).messages.filter (·.seq ≤ upTo)
  have hin : ∀ e ∈ removed, e ∈ (queueOf files library).messages := fun e he =>
    (mem_at.mp (List.mem_of_mem_filter he)).1
  have hmem : ∀ e ∈ ((queueOf files library).at now).messages, e.seq ≤ upTo → e ∈ removed := fun e he hle =>
    List.mem_filter.mpr ⟨he, by simpa using hle⟩
  by_cases hnil : removed = []
  · rw [if_pos hnil]
    refine removeAcked_keeps h (fun l => rfl) hnow ?_
    intro r _ e he hle
    have hnone := hmem e he hle
    rw [hnil] at hnone
    cases hnone
  rw [if_neg hnil]
  refine Program.keeps_bind (loadCallbacks_keeps h hI (fun e => hI) ?_)
  cases htransfer : transfer sha removed (live later (tableOf files)) false with
  | none =>
    simp only [htransfer]
    exact hI
  | some result =>
    obtain ⟨table, changed⟩ := result
    simp only [htransfer]
    -- no two entries of a queue are of one capability
    have hspec := transfer_spec
      (fun e he e' he' heq => congrArg Created.entry
        (h.unique (h.queued _ e (hin e he)) (h.queued _ e' (hin e' he')) heq))
      (h.hashes.sublist (List.filter_sublist.map _)) htransfer
    cases changed with
    | false =>
      -- every binding was in the table already
      have hsame := (hspec.same rfl).2
      refine removeAcked_keeps h (fun l => rfl) hnow ?_
      intro r hr e he hle hcallback
      by_cases hlive : later < r.expiresAt
      · have hrtable : r ∈ table := by
          rw [hsame]
          exact mem_live.mpr ⟨hr, hlive⟩
        exact .inl (hspec.bound r hrtable e (hmem e he hle) hcallback)
      · exact .inr (not_lt.mp hlive)
    | true =>
      have hbound : Bound sha drawn deleted created later (Assoc.set files .callbacks (.callbacks table)) := by
        refine h.retable ?_ ?_
        · rw [hspec.hashes]
          exact h.hashes.sublist (List.filter_sublist.map _)
        · intro r' hr'
          rcases hspec.origin r' hr' with hold | ⟨r, hr, e, he, hcallback, rfl⟩
          · exact ⟨r', (mem_live.mp hold).1, h.settles_self (mem_live.mp hold).1⟩
          · exact ⟨r, (mem_live.mp hr).1, rfl, rfl, rfl, rfl,
              .inr ⟨_, h.queued library e (hin e he), hcallback, rfl⟩⟩
      have hqueues : ∀ l, queueOf (Assoc.set files .callbacks (.callbacks table)) l = queueOf files l :=
        fun l => queueOf_set_callbacks files _ l
      have hsaved : Acked sha drawn deleted created later files library upTo
          (Assoc.set files .callbacks (.callbacks table)) := ⟨hbound, kept_same hqueues⟩
      refine Program.keeps_bind (keeps_put trivial hI (fun _ => ⟨hsaved, ?_⟩) fun _ e => hI)
      refine keeps_sync trivial hsaved (fun _ => ?_) fun _ e => hsaved
      refine removeAcked_keeps hbound hqueues hnow ?_
      intro r hr e he hle hcallback
      rw [tableOf_set_callbacks] at hr
      exact .inl (hspec.bound r hr e (hmem e he hle) hcallback)

/-! ## Deleting a library -/

/-- What a deletion leaves: nothing of another library gone. -/
def Removed (sha : Digest) (drawn deleted : List String) (created : List Created) (clock : ℕ) (files : Files)
    (library : String) (f : Files) : Prop :=
  Bound sha drawn (if Assoc.get f (.queue library) = none then library :: deleted else deleted) created clock f ∧
    Kept clock (fun l _ => l = library) files f

theorem removed_same {f : Files} (hf : Bound sha drawn deleted created clock f)
    (hqueues : ∀ l, queueOf f l = queueOf files l) : Removed sha drawn deleted created clock files library f := by
  refine ⟨?_, kept_same hqueues⟩
  split_ifs with hnone
  · refine hf.forget ?_
    rw [queueOf, hnone]
  · exact hf

theorem deleteLibraryLocked_keeps (h : Bound sha drawn deleted created now files) (library : String) :
    Preserves may (Removed sha drawn deleted created now files library)
      (deleteLibraryLocked library now) files := by
  have hI : Removed sha drawn deleted created now files library files := removed_same h fun l => rfl
  set table := (live now (tableOf files)).filter (·.library ≠ library)
  have hsub : table.Sublist (tableOf files) := List.filter_sublist.trans List.filter_sublist
  have hbound : Bound sha drawn deleted created now (Assoc.set files .callbacks (.callbacks table)) :=
    h.retable (h.hashes.sublist (hsub.map _)) fun r hr => ⟨r, hsub.subset hr, h.settles_self (hsub.subset hr)⟩
  have hsaved : Removed sha drawn deleted created now files library
      (Assoc.set files .callbacks (.callbacks table)) :=
    removed_same hbound fun l => queueOf_set_callbacks files _ l
  have herased : Removed sha drawn deleted created now files library
      (Assoc.erase (Assoc.set files .callbacks (.callbacks table)) (.queue library)) := by
    refine ⟨?_, ?_⟩
    · rw [if_pos (by rw [Assoc.get_erase, if_pos rfl])]
      refine hbound.erase fun r hr => ?_
      rw [tableOf_set_callbacks] at hr
      simpa using (List.mem_filter.mp hr).2
    · intro l e he
      rw [queueOf_erase_queue, queueOf_set_callbacks]
      split_ifs with heq
      · exact .inr (.inr heq)
      · exact .inl he
  unfold deleteLibraryLocked
  refine Program.keeps_bind (loadCallbacks_keeps h hI (fun e => hI) ?_)
  refine Program.keeps_bind (keeps_put trivial hI (fun _ => ⟨hsaved, ?_⟩) fun _ e => hI)
  refine keeps_sync trivial hsaved (fun _ => ?_) fun _ e => hsaved
  refine keeps_delete trivial hsaved (fun _ => ⟨herased, ?_⟩) fun _ e => hsaved
  exact keeps_sync trivial herased (fun _ => herased) fun _ e => herased

/-! ## Runs -/

/-- Time does not run backwards, and a token is drawn once. -/
def Fresh (s : State) : Event → Prop
  | .authorize _ _ _ token _ now later _ => s.clock ≤ now ∧ now ≤ later ∧ token ∉ s.drawn
  | .callback _ now _ => s.clock ≤ now
  | .drain _ now _ => s.clock ≤ now
  | .ack _ _ now later _ => s.clock ≤ now ∧ now ≤ later
  | .deleteLibrary _ now _ => s.clock ≤ now

instance (s : State) (e : Event) : Decidable (Fresh s e) := by
  cases e <;> unfold Fresh <;> infer_instance

/-- The events that may take an entry out of a library's queue, beside its age. -/
def Event.takes (library : String) (e : Entry) : Event → Prop
  | .ack l upTo _ _ _ => l = library ∧ ∃ n ∈ upTo, e.seq ≤ n
  | .deleteLibrary l _ _ => l = library
  | _ => False

def State.Bound (sha : Digest) (s : State) : Prop :=
  Receipts.Bound sha s.drawn s.deleted s.created s.clock s.files

variable {s : State}

theorem State.Bound.later {now : ℕ} (h : s.Bound sha) (hnow : s.clock ≤ now) :
    Receipts.Bound sha s.drawn s.deleted s.created now s.files := Receipts.Bound.later h hnow fun _ ht => ht

/-- One step: the files stay bound, and an entry goes by an acknowledgement, by age or with its library. -/
theorem step_bound {e : Event} (h : s.Bound sha) (hfresh : Fresh s e) :
    (step sha s e).Bound sha ∧ Kept (step sha s e).clock (fun l entry => e.takes l entry) s.files
      (step sha s e).files := by
  cases e with
  | authorize library request dropbox token id now later fates =>
    have hlater := h.later (hfresh.1.trans hfresh.2.1)
    have hissued := hlater.later le_rfl fun t ht => List.mem_cons_of_mem token ht
    exact run_keeps fates ⟨hissued, kept_same fun l => rfl⟩
      (authorize_keeps hlater hfresh.2.2 library request dropbox id now)
  | callback req now fates =>
    have hlater := h.later hfresh
    exact run_keeps fates (received_same hlater hlater fun l => rfl)
      ((callback_keeps hlater req).mono fun _ _ hQ => hQ.1)
  | drain library now fates =>
    have hsame : s.files = (Storage.run (scripted fates) (drain library now) s.files).1 :=
      run_keeps fates rfl (drain_keeps h library now)
    have hlater := h.later hfresh
    refine ⟨?_, kept_same fun l => congrArg (queueOf · l) hsame.symm⟩
    unfold State.Bound
    simp only [step]
    rw [← hsame]
    exact hlater
  | ack library upTo now later fates =>
    have hlater := h.later (hfresh.1.trans hfresh.2)
    cases upTo with
    | none => exact ⟨hlater, kept_same fun l => rfl⟩
    | some upTo =>
      have hacked : Acked sha s.drawn s.deleted s.created later s.files library upTo
          (Storage.run (scripted fates) (ack sha library (some upTo) now later) s.files).1 :=
        run_keeps fates ⟨hlater, kept_same fun l => rfl⟩ (ack_keeps hlater hfresh.2 library upTo)
      refine ⟨hacked.1, fun l entry hentry => ?_⟩
      rcases hacked.2 l entry hentry with hin | haged | ⟨rfl, hle⟩
      · exact .inl hin
      · exact .inr (.inl haged)
      · exact .inr (.inr ⟨rfl, upTo, rfl, hle⟩)
  | deleteLibrary library now fates =>
    have hlater := h.later hfresh
    have hremoved : Removed sha s.drawn s.deleted s.created now s.files library
        (Storage.run (scripted fates) (deleteLibraryLocked library now) s.files).1 :=
      run_keeps fates (removed_same hlater fun l => rfl) (deleteLibraryLocked_keeps hlater library)
    refine ⟨hremoved.1, fun l entry hentry => ?_⟩
    rcases hremoved.2 l entry hentry with hin | haged | rfl
    · exact .inl hin
    · exact .inr (.inl haged)
    · exact .inr (.inr rfl)

/-- What was answered 200 was queued, with the ciphertext that was sent. -/
def State.Answers (s : State) : Prop :=
  ∀ a ∈ s.answered, ∃ c ∈ s.created,
    c.entry.callback = a.callback ∧ c.entry.sealed = a.sealed ∧ c.entry.seq = a.seq

theorem callback_answers (h : s.Bound sha) (hanswers : s.Answers) (req : CallbackRequest) {now : ℕ}
    (hnow : s.clock ≤ now) (fates : Fates) : (step sha s (.callback req now fates)).Answers := by
  have hlater := h.later hnow
  intro a ha
  simp only [step] at ha ⊢
  rcases List.mem_append.mp ha with hold | hnew
  · obtain ⟨c, hc, hanswer⟩ := hanswers a hold
    exact ⟨c, List.mem_append_left _ hc, hanswer⟩
  cases hrun : Storage.run (scripted fates) (callback sha req now) s.files with
  | mk files reply =>
    rw [hrun] at hnew
    cases reply with
    | none => cases hnew
    | some reply =>
      have htruthful := (run_ends (within_any _) (callback_keeps hlater req) hrun).2
      simp only [answer, Option.bind_some] at hnew
      cases hseq : reply.seq with
      | none =>
        rw [hseq] at hnew
        cases hnew
      | some n =>
        rw [hseq] at hnew
        rw [List.mem_singleton.mp hnew]
        exact htruthful n hseq

theorem step_answers {e : Event} (h : s.Bound sha) (hanswers : s.Answers) (hfresh : Fresh s e) :
    (step sha s e).Answers := by
  cases e with
  | callback req now fates => exact callback_answers h hanswers req hfresh fates
  | _ => exact hanswers

theorem exec_bound {es : List Event} (hmeets : Run.Meets (step sha) Fresh init es) :
    (Run.exec (step sha) init es).Bound sha ∧ (Run.exec (step sha) init es).Answers := by
  have hinit : init.Bound sha ∧ init.Answers := ⟨bound_init sha, fun a ha => nomatch ha⟩
  refine Run.exec_inv (I := fun s => s.Bound sha ∧ s.Answers) ?_ hinit hmeets
  intro s e h hfresh
  exact ⟨(step_bound h.1 hfresh).1, step_answers h.1 h.2 hfresh⟩

def Event.deletes (library : String) : Event → Bool
  | .deleteLibrary l _ _ => l = library
  | _ => false

theorem step_deleted {e : Event} (he : e.deletes library = false) :
    (step sha s e).deleted.count library = s.deleted.count library := by
  cases e with
  | deleteLibrary l =>
    have hne : l ≠ library := by simpa [Event.deletes] using he
    simp only [step]
    split_ifs
    · exact List.count_cons_of_ne hne
    · rfl
  | _ => rfl

theorem exec_deleted (sha : Digest) {es : List Event} (hes : ∀ e ∈ es, e.deletes library = false) :
    (Run.exec (step sha) init es).deleted.count library = 0 := by
  refine Run.exec_inv (P := fun _ (e : Event) => e.deletes library = false)
    (I := fun (s : State) => s.deleted.count library = 0) ?_ rfl (Run.meets_of_forall hes init)
  intro s e hs he
  rw [step_deleted he]
  exact hs

/-- **A capability delivers once.** In every run of requests on any libraries, with failures and deaths at any
file operation, tokens drawn once and time that does not run backwards: no capability makes two entries, what is
bound and what is answered 200 is the entry it made, the entries of one queue are numbered upwards, and an entry
goes only by its age, by an acknowledgement or with its library. -/
theorem receipts_deliver_once (sha : Digest) (es : List Event) (hmeets : Run.Meets (step sha) Fresh init es) :
    let s := Run.exec (step sha) init es
    (s.created.map (·.entry.callback)).Nodup ∧
    (∀ library, ∀ e ∈ (queueOf s.files library).messages, ∃ era, ⟨library, era, e⟩ ∈ s.created) ∧
    (∀ r ∈ tableOf s.files, ∀ a, r.accepted = some a →
      ∃ c ∈ s.created, c.entry.callback = r.hash ∧ a = ⟨sha.of c.entry.sealed, c.entry.seq⟩) ∧
    (∀ a ∈ s.answered, ∃ c ∈ s.created,
      c.entry.callback = a.callback ∧ c.entry.sealed = a.sealed ∧ c.entry.seq = a.seq) ∧
    (∀ a ∈ s.answered, ∀ b ∈ s.answered, a.callback = b.callback → a = b) ∧
    (s.created.Pairwise fun c d => c.library = d.library → c.era = d.era → c.entry.seq < d.entry.seq) ∧
    (∀ library, (∀ e ∈ es, e.deletes library = false) →
      (s.created.filter (·.library = library)).Pairwise (·.entry.seq < ·.entry.seq)) ∧
    (∀ e, Fresh s e → ∀ library, ∀ entry ∈ (queueOf s.files library).messages,
      entry ∉ (queueOf (step sha s e).files library).messages →
      saturatingAdd entry.receivedAt TTL_MS ≤ (step sha s e).clock ∨ e.takes library entry) := by
  obtain ⟨hbound, hanswers⟩ := exec_bound hmeets
  intro s
  refine ⟨hbound.once, ?_, hbound.accepted, hanswers, ?_, hbound.order, ?_, ?_⟩
  · exact fun library e he => ⟨_, hbound.queued library e he⟩
  · intro a ha b hb hab
    obtain ⟨c, hc, hcallback, hsealed, hseq⟩ := hanswers a ha
    obtain ⟨d, hd, hcallback', hsealed', hseq'⟩ := hanswers b hb
    have hsame : c = d := hbound.unique hc hd (hcallback.trans (hab.trans hcallback'.symm))
    cases a
    cases b
    simp_all
  · intro library hes
    -- without a deletion every entry is of the first queue
    have hzero := exec_deleted sha hes
    have hera : ∀ c ∈ s.created, c.library = library → c.era = 0 := by
      rintro c hc rfl
      have hle := hbound.eras c hc
      omega
    refine List.Pairwise.imp_of_mem ?_ (hbound.order.filter _)
    intro c d hc hd hlt
    obtain ⟨hc, hclib⟩ := List.mem_filter.mp hc
    obtain ⟨hd, hdlib⟩ := List.mem_filter.mp hd
    have hclib' : c.library = library := by simpa using hclib
    have hdlib' : d.library = library := by simpa using hdlib
    exact hlt (hclib'.trans hdlib'.symm) ((hera c hc hclib').trans (hera d hd hdlib').symm)
  · intro e hfresh library entry hentry hgone
    rcases (step_bound hbound hfresh).2 library entry hentry with hin | hrest
    · exact absurd hin hgone
    · exact hrest

/-! ## A sample -/

def sampleToken : String := String.ofList (List.replicate 43 't')

def sampleCallback (sealed : String) (now : ℕ) (fates : Fates) : Event :=
  .callback ⟨false, some sampleToken, false, some sealed⟩ now fates

/-- A callback dies once its queue is written; the retry, an acknowledgement and two more retries follow, the last
with another ciphertext. -/
def sampleRun : List Event :=
  [.authorize "l" "r" (.ok (some ⟨"kid", "pk"⟩)) sampleToken "id" 1 1 [],
    sampleCallback "x" 2 [.ok, .ok, .ok, .dies true], sampleCallback "x" 3 [], .drain "l" 3 [],
    .ack "l" (some 1) 4 4 [], sampleCallback "x" 5 [], sampleCallback "y" 6 []]

theorem receipts_deliver_once_sample :
    Run.Meets (step .plain) Fresh init sampleRun ∧
    (Run.exec (step .plain) init sampleRun).created = [⟨"l", 0, ⟨1, "x", sampleToken, 2⟩⟩] ∧
    (Run.exec (step .plain) init sampleRun).answered = [⟨sampleToken, "x", 1⟩, ⟨sampleToken, "x", 1⟩] ∧
    ((Run.exec (step .plain) init sampleRun).created.map (·.entry.callback)).Nodup := by
  have hmeets : Run.Meets (step .plain) Fresh init sampleRun := by decide +kernel
  exact ⟨hmeets, by decide +kernel, by decide +kernel, (receipts_deliver_once .plain sampleRun hmeets).1⟩

end DenEdge.Receipts
