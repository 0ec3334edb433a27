import DenEdge.Receipts.Bound

/-!
# Authorising and the callback

Both keep `Bound` at every file operation, whichever of them fail and wherever the process dies, and drop no entry
that has not aged out; a callback makes an entry only for a capability that made none (`Bound.unused`).
-/

namespace DenEdge.Receipts

open Storage

variable {sha : Digest} {drawn deleted : List String} {created : List Created} {clock now : ℕ} {files : Files}
  {library : String} {may : May Name File} {I : Files → Prop}

/-! ## Loading -/

theorem loadCallbacks_keeps (h : Bound sha drawn deleted created clock files) (hI : I files)
    {Q : Except Failure (List Callback) → Files → Prop} (hfailed : ∀ e, Q (.error e) files)
    (hloaded : Q (.ok (live now (tableOf files))) files) :
    (loadCallbacks now).Keeps (Ends may) anyCall I Q files := by
  unfold loadCallbacks
  refine keeps_get trivial hI (fun _ => ?_) fun _ e => hfailed e
  unfold tableOf at hloaded
  cases hfile : Assoc.get files .callbacks with
  | none =>
    rw [hfile] at hloaded
    exact hloaded
  | some f =>
    obtain ⟨l, rfl⟩ := h.callbacksFile f hfile
    rw [hfile] at hloaded
    exact hloaded

theorem loadQueue_keeps (h : Bound sha drawn deleted created clock files) (hI : I files)
    {Q : Except Failure Queue → Files → Prop} (hfailed : ∀ e, Q (.error e) files)
    (hloaded : Q (.ok ((queueOf files library).at now)) files) :
    (loadQueue library now).Keeps (Ends may) anyCall I Q files := by
  unfold loadQueue
  refine keeps_get trivial hI (fun _ => ?_) fun _ e => hfailed e
  cases hfile : Assoc.get files (.queue library) with
  | none =>
    rw [queueOf_at_none hfile] at hloaded
    exact hloaded
  | some f =>
    obtain ⟨q, rfl⟩ := h.queueFile library f hfile
    rw [queueOf, hfile] at hloaded
    exact hloaded

/-! ## What leaves a queue -/

/-- No entry is gone but one that has aged out, or one that may go. -/
def Kept (clock : ℕ) (mayGo : String → Entry → Prop) (before after : Files) : Prop :=
  ∀ library, ∀ e ∈ (queueOf before library).messages,
    e ∈ (queueOf after library).messages ∨ saturatingAdd e.receivedAt TTL_MS ≤ clock ∨ mayGo library e

variable {f : Files}
variable {mayGo : String → Entry → Prop} {l : List Callback} {c : Created}

theorem kept_same (h : ∀ l, queueOf f l = queueOf files l) :
    Kept clock mayGo files f := by
  intro l e he
  rw [h l]
  exact .inl he

theorem kept_set {q : Queue} (h : ∀ l, queueOf f l = queueOf files l)
    (hq : ∀ e ∈ (queueOf files library).messages,
      e ∈ q.messages ∨ saturatingAdd e.receivedAt TTL_MS ≤ clock ∨ mayGo library e) :
    Kept clock mayGo files (Assoc.set f (.queue library) (.queue q)) := by
  intro l e he
  rw [queueOf_set_queue]
  split_ifs with heq
  · subst heq
    exact hq e he
  · rw [h l]
    exact .inl he

/-! ## Authorising -/

theorem authorize_keeps {later : ℕ} (h : Bound sha drawn deleted created later files) {token : String}
    (hfresh : token ∉ drawn) (library request : String) (dropbox : Except Failure (Option Dropbox)) (id : String)
    (now : ℕ) :
    Preserves may (fun f => Bound sha (token :: drawn) deleted created later f ∧
      Kept later (fun _ _ => False) files f)
      (authorize sha library request dropbox token id now later) files := by
  have hI : Bound sha (token :: drawn) deleted created later files ∧ Kept later (fun _ _ => False) files files :=
    ⟨h.later le_rfl fun t ht => List.mem_cons_of_mem _ ht, kept_same fun l => rfl⟩
  unfold authorize
  match dropbox with
  | .error e => exact hI
  | .ok none => exact hI
  | .ok (some dropbox) =>
    refine Program.keeps_bind (loadCallbacks_keeps h hI (fun e => hI) ?_)
    simp only
    split
    · exact hI
    · split_ifs
      · exact hI
      · set r : Callback := ⟨sha.of token, token, sha.of request, library, dropbox.kid, dropbox.pk, id,
          saturatingAdd later TTL_MS, none, 1⟩
        have hissued : Bound sha (token :: drawn) deleted created later
            (Assoc.set files .callbacks (.callbacks (live now (tableOf files) ++ [r]))) :=
          h.issue List.filter_sublist hfresh rfl rfl rfl rfl
        have hkept : Kept later (fun _ _ => False) files
            (Assoc.set files .callbacks (.callbacks (live now (tableOf files) ++ [r]))) :=
          kept_same fun l => queueOf_set_callbacks files _ l
        exact Program.keeps_bind
          (keeps_put trivial hI (fun _ => ⟨⟨hissued, hkept⟩, hissued, hkept⟩) fun _ e => hI)

/-! ## The callback -/

variable {hash sealed : String} {r : Callback}
variable {g : Callback → Callback}

/-- Where no two records are of one hash, the first of it is all of them. -/
theorem changeFirst_eq_map (hnodup : (l.map Callback.hash).Nodup) (hash : String) (g : Callback → Callback) :
    changeFirst hash g l = l.map fun r => if r.hash = hash then g r else r := by
  induction l with
  | nil => rfl
  | cons c rest ih =>
    rw [List.map_cons, List.nodup_cons] at hnodup
    rw [changeFirst, List.map_cons]
    split_ifs with hc
    · have hrest : ∀ r ∈ rest, (if r.hash = hash then g r else r) = r := fun r hr =>
        if_neg fun (hr' : r.hash = hash) => hnodup.1 (List.mem_map.mpr ⟨r, hr, hr'.trans hc.symm⟩)
      rw [List.map_congr_left hrest, List.map_id']
    · rw [ih hnodup.2]

theorem hashes_changeFirst (hg : ∀ r, (g r).hash = r.hash) (l : List Callback) :
    (changeFirst hash g l).map Callback.hash = l.map Callback.hash := by
  induction l with
  | nil => rfl
  | cons c rest ih =>
    rw [changeFirst]
    split_ifs
    · rw [List.map_cons, List.map_cons, hg]
    · rw [List.map_cons, List.map_cons, ih]

section

variable (h : Bound sha drawn deleted created clock files)
include h

/-- The table with one record settled is saved. -/
theorem Bound.settle (now : ℕ)
    (hhash : ∀ r, (g r).hash = r.hash) (hg : ∀ r ∈ tableOf files, r.hash = hash → Settles sha created r (g r)) :
    Bound sha drawn deleted created clock
      (Assoc.set files .callbacks (.callbacks (changeFirst hash g (live now (tableOf files))))) := by
  have hnodup : ((live now (tableOf files)).map Callback.hash).Nodup :=
    h.hashes.sublist (List.filter_sublist.map _)
  refine h.retable ?_ ?_
  · rw [hashes_changeFirst hhash]
    exact hnodup
  · intro r' hr'
    rw [changeFirst_eq_map hnodup] at hr'
    obtain ⟨r, hr, rfl⟩ := List.mem_map.mp hr'
    have hmem := (mem_live.mp hr).1
    split_ifs with hrhash
    · exact ⟨r, hmem, hg r hmem hrhash⟩
    · exact ⟨r, hmem, h.settles_self hmem⟩

theorem newEntries_same
    (hqueue : queueOf f library = queueOf files library) : newEntries deleted files f library = [] := by
  unfold newEntries
  rw [hqueue, List.map_eq_nil_iff, List.filter_eq_nil_iff]
  intro e he
  have hlt := h.next _ (h.queued library e he) rfl
  simp only [decide_eq_true_eq, not_le]
  exact lt_of_lt_of_le hlt (le_max_left _ _)

theorem newEntries_push (now : ℕ) {n : ℕ} {e : Entry}
    (hqueue : queueOf f library = ⟨n, ((queueOf files library).at now).messages ++ [e]⟩)
    (he : e.seq = max (queueOf files library).next 1) :
    newEntries deleted files f library = [⟨library, deleted.count library, e⟩] := by
  unfold newEntries
  have hold : ((queueOf files library).at now).messages.filter
      (fun e => decide (max (queueOf files library).next 1 ≤ e.seq)) = [] := by
    rw [List.filter_eq_nil_iff]
    intro e he
    have hlt := h.next _ (h.queued library e (mem_at.mp he).1) rfl
    simp only [decide_eq_true_eq, not_le]
    exact lt_of_lt_of_le hlt (le_max_left _ _)
  rw [hqueue, List.filter_append, hold]
  simp [he]

end

/-- What a callback leaves: the entry it made, if it made one, and nothing gone but what aged out. -/
def Received (sha : Digest) (drawn deleted : List String) (created : List Created) (now : ℕ) (files : Files)
    (library : String) (f : Files) : Prop :=
  Bound sha drawn deleted (created ++ newEntries deleted files f library) now f ∧
    Kept now (fun _ _ => False) files f

/-- A 200 names an entry of the capability with the ciphertext that was sent. -/
def Truthful (created : List Created) (hash sealed : String) (reply : Reply) : Prop :=
  ∀ n, reply.seq = some n → ∃ c ∈ created, c.entry.callback = hash ∧ c.entry.sealed = sealed ∧ c.entry.seq = n

theorem truthful_error (status : ℕ) (code : String) : Truthful created hash sealed (.error status code) := by
  intro n hn
  cases hn

theorem truthful_internal (e : Failure) : Truthful created hash sealed (internal e) := by
  intro n hn
  cases e <;> cases hn

theorem truthful_accepted (hc : c ∈ created) (hhash : c.entry.callback = hash)
    (hsealed : c.entry.sealed = sealed) (queued : ℕ) :
    Truthful created hash sealed (.accepted c.entry.seq queued) := by
  intro n hn
  cases hn
  exact ⟨c, hc, hhash, hsealed, rfl⟩

section

variable (h : Bound sha drawn deleted created now files)
include h

/-- The queues are as they were. -/
theorem received_same (hf : Bound sha drawn deleted created now f)
    (hqueues : ∀ l, queueOf f l = queueOf files l) : Received sha drawn deleted created now files library f := by
  refine ⟨?_, kept_same hqueues⟩
  rw [newEntries_same h (hqueues library), List.append_nil]
  exact hf

omit h in
/-- What is made of an aged-out entry is a dead capability. -/
theorem Bound.aged (h : Bound sha drawn deleted created clock files) (hr : r ∈ tableOf files)
    (hc : c ∈ created) (hcallback : c.entry.callback = r.hash) (hnow : now ≤ clock)
    (haged : ¬ now < saturatingAdd c.entry.receivedAt TTL_MS) : r.expiresAt ≤ clock := by
  have houtlives := (h.bound r hr c hc hcallback).outlives
  omega

/-- A live capability without a binding, whose library's queue has no entry of it, never made one. -/
theorem Bound.unused (hr : r ∈ live now (tableOf files)) (haccepted : r.accepted = none)
    (hnone : ((queueOf files r.library).at now).messages.find? (·.callback = r.hash) = none) :
    ∀ c ∈ created, c.entry.callback ≠ r.hash := by
  intro c hc hcallback
  obtain ⟨htable, hlive⟩ := mem_live.mp hr
  rcases (h.bound r htable c hc hcallback).kept with hbound | hqueued | hexpired
  · rw [haccepted] at hbound
    cases hbound
  · by_cases haged : now < saturatingAdd c.entry.receivedAt TTL_MS
    · have hfound := List.find?_eq_none.mp hnone c.entry (mem_at.mpr ⟨hqueued, haged⟩)
      exact hfound (by simpa using hcallback)
    · have hdead := h.aged htable hc hcallback le_rfl haged
      omega
  · omega

omit h in
theorem bindRecord_keeps {P : Files → Prop} {table : List Callback} {seq queued : ℕ} (hI : P files)
    (hsaved : P (Assoc.set files .callbacks (.callbacks table))) {made : Files → List Created}
    (hreply : Truthful (made (Assoc.set files .callbacks (.callbacks table))) hash sealed
      (.accepted seq queued)) :
    (bindRecord table seq queued).Keeps (Ends may) anyCall P
      (fun reply f => P f ∧ Truthful (made f) hash sealed reply) files := by
  unfold bindRecord
  refine Program.keeps_bind (keeps_put trivial hI (fun _ => ⟨hsaved, ?_⟩) fun _ e => ⟨hI, truthful_internal e⟩)
  exact keeps_sync trivial hsaved (fun _ => ⟨hsaved, hreply⟩) fun _ e => ⟨hsaved, truthful_internal e⟩

theorem enqueue_keeps (hr : r ∈ live now (tableOf files)) (hnew : ∀ c ∈ created, c.entry.callback ≠ r.hash) :
    (enqueue sha (live now (tableOf files)) r.library ((queueOf files r.library).at now) r.hash sealed
      now).Keeps (Ends may) anyCall (Received sha drawn deleted created now files r.library)
      (fun reply f => Received sha drawn deleted created now files r.library f ∧
        Truthful (created ++ newEntries deleted files f r.library) r.hash sealed reply) files := by
  have htable := (mem_live.mp hr).1
  set n := max (queueOf files r.library).next 1
  set e : Entry := ⟨n, sealed, r.hash, now⟩
  set c : Created := ⟨r.library, deleted.count r.library, e⟩
  set q : Queue := ⟨n + 1, ((queueOf files r.library).at now).messages ++ [e]⟩
  -- the queue first loses what has aged out, and then has the new entry
  have hpruned : Bound sha drawn deleted created now
      (Assoc.set files (.queue r.library) (.queue ((queueOf files r.library).at now))) := by
    refine h.requeue (fun e' he' => (mem_at.mp he').1) (le_max_left _ _) ?_
    intro r' hr' d hd hcallback _ hin hout
    have haged : ¬ now < saturatingAdd d.entry.receivedAt TTL_MS := fun hlt => hout (mem_at.mpr ⟨hin, hlt⟩)
    exact .inr (h.aged hr' hd hcallback le_rfl haged)
  have hpushed : Bound sha drawn deleted (created ++ [c]) now
      (Assoc.set files (.queue r.library) (.queue q)) := by
    have hmem : r ∈ tableOf (Assoc.set files (.queue r.library) (.queue ((queueOf files r.library).at now))) := by
      rw [tableOf_set_queue]
      exact htable
    have hnext : (queueOf (Assoc.set files (.queue r.library) (.queue ((queueOf files r.library).at now)))
        r.library).next ≤ n := by
      rw [queueOf_set_queue, if_pos rfl]
      exact le_rfl
    have hpush := hpruned.push sealed hmem rfl hnew hnext
    rw [queueOf_set_queue, if_pos rfl, Assoc.set_set] at hpush
    exact hpush
  have hone : newEntries deleted files (Assoc.set files (.queue r.library) (.queue q)) r.library = [c] :=
    newEntries_push (n := n + 1) h now (by rw [queueOf_set_queue, if_pos rfl]) rfl
  have hone' : ∀ f,
      newEntries deleted files (Assoc.set (Assoc.set files (.queue r.library) (.queue q)) .callbacks f)
      r.library = [c] := by
    intro f
    refine newEntries_push (n := n + 1) h now ?_ rfl
    rw [queueOf_set_callbacks, queueOf_set_queue, if_pos rfl]
  have hkept : Kept now (fun _ _ => False) files (Assoc.set files (.queue r.library) (.queue q)) := by
    refine kept_set (fun l => rfl) fun e' he' => ?_
    by_cases haged : now < saturatingAdd e'.receivedAt TTL_MS
    · exact .inl (List.mem_append_left _ (mem_at.mpr ⟨he', haged⟩))
    · exact .inr (.inl (not_lt.mp haged))
  have hreceived : Received sha drawn deleted created now files r.library
      (Assoc.set files (.queue r.library) (.queue q)) := by
    refine ⟨?_, hkept⟩
    rw [hone]
    exact hpushed
  have hI : Received sha drawn deleted created now files r.library files := received_same h h fun l => rfl
  unfold enqueue
  refine Program.keeps_bind (keeps_put trivial hI (fun _ => ⟨hreceived, ?_⟩) fun _ e => ⟨hI, truthful_internal e⟩)
  refine keeps_sync trivial hreceived (fun _ => ?_) fun _ e => ⟨hreceived, truthful_internal e⟩
  -- the binding goes into the table
  have hsettles : ∀ r' ∈ tableOf (Assoc.set files (.queue r.library) (.queue q)), r'.hash = r.hash →
      Settles sha (created ++ [c]) r' { r' with accepted := some ⟨sha.of sealed, n⟩ } := by
    intro r' hr' hhash
    refine ⟨rfl, rfl, rfl, ?_, .inr ⟨c, List.mem_concat_self, hhash.symm, rfl⟩⟩
    rw [tableOf_set_queue] at hr'
    exact h.version r' hr'
  have hsettled :=
    hpushed.settle now (g := fun r' => { r' with accepted := some ⟨sha.of sealed, n⟩ }) (fun _ => rfl) hsettles
  rw [tableOf_set_queue] at hsettled
  refine bindRecord_keeps hreceived ?_ ?_
  · refine ⟨?_, ?_⟩
    · rw [hone']
      exact hsettled
    · intro l e' he'
      rw [queueOf_set_callbacks]
      exact hkept l e' he'
  · rw [hone']
    exact truthful_accepted (c := c) List.mem_concat_self rfl rfl _

theorem receive_keeps (sealed : String) (hr : r ∈ live now (tableOf files)) :
    (receive sha (live now (tableOf files)) r ((queueOf files r.library).at now) r.hash sealed
      now).Keeps (Ends may) anyCall (Received sha drawn deleted created now files r.library)
      (fun reply f => Received sha drawn deleted created now files r.library f ∧
        Truthful (created ++ newEntries deleted files f r.library) r.hash sealed reply) files := by
  have htable := (mem_live.mp hr).1
  have hI : Received sha drawn deleted created now files r.library files := received_same h h fun l => rfl
  unfold receive
  cases haccepted : r.accepted with
  | some a =>
    obtain ⟨c, hc, hcallback, rfl⟩ := h.accepted r htable a haccepted
    simp only
    split_ifs with hsealed
    · exact ⟨hI, truthful_error _ _⟩
    · exact ⟨hI, truthful_internal _⟩
    · have hsame : c.entry.sealed = sealed := by simpa [Created.accepted] using hsealed
      exact ⟨hI, truthful_accepted (List.mem_append_left _ hc) hcallback hsame _⟩
  | none =>
    cases hfind : ((queueOf files r.library).at now).messages.find? (·.callback = r.hash) with
    | some e =>
      have hin := (mem_at.mp (List.mem_of_find?_eq_some hfind)).1
      have hcallback : e.callback = r.hash := by simpa using List.find?_some hfind
      have hmade := h.queued r.library e hin
      simp only
      split_ifs with hsealed
      · exact ⟨hI, truthful_error _ _⟩
      · have hsame : e.sealed = sealed := not_not.mp hsealed
        have hsettles : ∀ r' ∈ tableOf files, r'.hash = r.hash → Settles sha created r'
            { r' with accepted := some ⟨sha.of sealed, e.seq⟩, bindingVersion := 1 } := by
          intro r' _ hhash
          refine ⟨rfl, rfl, rfl, rfl, .inr ⟨_, hmade, hcallback.trans hhash.symm, ?_⟩⟩
          rw [Created.accepted, hsame]
        have hsettled := h.settle now (g := fun r' =>
          { r' with accepted := some ⟨sha.of sealed, e.seq⟩, bindingVersion := 1 }) (fun _ => rfl) hsettles
        refine bindRecord_keeps hI (received_same h hsettled fun l => queueOf_set_callbacks files _ l) ?_
        exact truthful_accepted (List.mem_append_left _ hmade) hcallback hsame _
    | none =>
      split_ifs
      · exact ⟨hI, truthful_error _ _⟩
      · exact ⟨hI, truthful_error _ _⟩
      · exact enqueue_keeps h hr (h.unused hr haccepted hfind)

omit h in
/-- A live capability is the stored one of its hash. -/
theorem Bound.find_live (h : Bound sha drawn deleted created clock files)
    (hfind : (live now (tableOf files)).find? (·.hash = hash) = some r) :
    (tableOf files).find? (·.hash = hash) = some r := by
  have hr := (mem_live.mp (List.mem_of_find?_eq_some hfind)).1
  have hhash : r.hash = hash := by simpa using List.find?_some hfind
  rw [← hhash]
  exact List.find?_of_nodup_map h.hashes hr

theorem callback_keeps (req : CallbackRequest) :
    (callback sha req now).Keeps (Ends may) anyCall
      (Received sha drawn deleted created now files (req.library sha files))
      (fun reply f => Received sha drawn deleted created now files (req.library sha files) f ∧
        Truthful (created ++ newEntries deleted files f (req.library sha files)) (sha.of (req.token.getD ""))
          (req.sealed.getD "") reply) files := by
  have hI : Received sha drawn deleted created now files (req.library sha files) files :=
    received_same h h fun l => rfl
  unfold callback
  by_cases hlimited : req.limited = true
  · rw [if_pos hlimited]
    exact ⟨hI, truthful_error _ _⟩
  rw [if_neg hlimited]
  cases htoken : req.token.filter (·.length = 43) with
  | none => exact ⟨hI, truthful_error _ _⟩
  | some token =>
    have htoken' : req.token = some token := (Option.filter_eq_some_iff.mp htoken).1
    by_cases hcapability : req.capabilityLimited = true
    · simp only [if_pos hcapability]
      exact ⟨hI, truthful_error _ _⟩
    simp only [if_neg hcapability]
    cases hsealed : req.sealed with
    | none => exact ⟨hI, truthful_error _ _⟩
    | some sealed =>
      refine Program.keeps_bind (loadCallbacks_keeps h hI (fun e => ⟨hI, truthful_internal e⟩) ?_)
      cases hfind : (live now (tableOf files)).find? (·.hash = sha.of token) with
      | none =>
        simp only [hfind]
        exact ⟨hI, truthful_error _ _⟩
      | some r =>
        simp only [hfind]
        have hhash : r.hash = sha.of token := by simpa using List.find?_some hfind
        have hlibrary : req.library sha files = r.library := by
          rw [CallbackRequest.library, htoken', Option.getD_some, h.find_live hfind]
          rfl
        rw [hlibrary] at hI ⊢
        refine Program.keeps_bind (loadQueue_keeps h hI (fun e => ⟨hI, truthful_internal e⟩) ?_)
        rw [htoken', Option.getD_some, ← hhash]
        exact receive_keeps h sealed (List.mem_of_find?_eq_some hfind)

end

end DenEdge.Receipts
