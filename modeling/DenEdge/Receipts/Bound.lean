import DenEdge.Receipts.Model

/-!
# Where a capability's binding is

A capability's binding is in the queue entry first and in the table from then on, so at any moment one of the two
holds it, or the capability has expired: a record expires no later than the entry it made, so an entry that aged
out leaves a dead capability behind. `Bound` says so of the files, and one lemma per kind of write keeps it:
`retable`, `issue`, `requeue`, `push`, `forget`, `erase`.
-/

namespace DenEdge.Receipts

open Storage

variable {sha : Digest} {drawn deleted : List String} {created : List Created} {clock : ℕ} {files : Files}

/-! ## The files as they are read -/

@[simp] theorem tableOf_set_callbacks (files : Files) (l : List Callback) :
    tableOf (Assoc.set files .callbacks (.callbacks l)) = l := by
  unfold tableOf
  rw [Assoc.get_set, if_pos rfl]

@[simp] theorem tableOf_set_queue (files : Files) (library : String) (f : File) :
    tableOf (Assoc.set files (.queue library) f) = tableOf files := by
  unfold tableOf
  rw [Assoc.get_set, if_neg (by simp)]

@[simp] theorem tableOf_erase_queue (files : Files) (library : String) :
    tableOf (Assoc.erase files (.queue library)) = tableOf files := by
  unfold tableOf
  rw [Assoc.get_erase, if_neg (by simp)]

@[simp] theorem queueOf_set_callbacks (files : Files) (f : File) (library : String) :
    queueOf (Assoc.set files .callbacks f) library = queueOf files library := by
  unfold queueOf
  rw [Assoc.get_set, if_neg (by simp)]

theorem queueOf_set_queue (files : Files) (library library' : String) (q : Queue) :
    queueOf (Assoc.set files (.queue library) (.queue q)) library' =
      if library' = library then q else queueOf files library' := by
  unfold queueOf
  simp only [Assoc.get_set, Name.queue.injEq]
  split_ifs <;> rfl

theorem queueOf_erase_queue (files : Files) (library library' : String) :
    queueOf (Assoc.erase files (.queue library)) library' =
      if library' = library then ⟨1, []⟩ else queueOf files library' := by
  unfold queueOf
  simp only [Assoc.get_erase, Name.queue.injEq]
  split_ifs <;> rfl

variable {r : Callback} {library : String}
variable {l : List Callback}

theorem mem_live {now : ℕ} : r ∈ live now l ↔ r ∈ l ∧ now < r.expiresAt := by
  simp [live]

theorem mem_at {q : Queue} {now : ℕ} {e : Entry} :
    e ∈ (q.at now).messages ↔ e ∈ q.messages ∧ now < saturatingAdd e.receivedAt TTL_MS := by
  simp [Queue.at]

theorem queueOf_at_none (hnone : Assoc.get files (.queue library) = none) (now : ℕ) :
    (queueOf files library).at now = ⟨1, []⟩ := by
  simp [queueOf, hnone, Queue.at]

/-! ## The invariant -/

/-- What the table holds of an entry once it is bound. -/
def Created.accepted (sha : Digest) (c : Created) : Accepted := ⟨sha.of c.entry.sealed, c.entry.seq⟩

/-- A record answers for an entry its capability made: it holds the binding, or the entry still waits, or the
capability has expired. -/
structure Binds (sha : Digest) (clock : ℕ) (files : Files) (r : Callback) (c : Created) : Prop where
  library : c.library = r.library
  /-- The entry does not age out before the capability expires. -/
  outlives : r.expiresAt ≤ saturatingAdd c.entry.receivedAt TTL_MS
  kept : r.accepted = some (c.accepted sha) ∨ c.entry ∈ (queueOf files r.library).messages ∨ r.expiresAt ≤ clock

/-- What the files are between two requests, and at every operation of one. -/
structure Bound (sha : Digest) (drawn deleted : List String) (created : List Created) (clock : ℕ)
    (files : Files) : Prop where
  callbacksFile : ∀ f, Assoc.get files .callbacks = some f → ∃ l, f = .callbacks l
  queueFile : ∀ library f, Assoc.get files (.queue library) = some f → ∃ q, f = .queue q
  version : ∀ r ∈ tableOf files, r.bindingVersion = 1
  expires : ∀ r ∈ tableOf files, r.expiresAt ≤ saturatingAdd clock TTL_MS
  issued : ∀ r ∈ tableOf files, ∃ t ∈ drawn, r.hash = sha.of t
  hashes : ((tableOf files).map Callback.hash).Nodup
  once : (created.map (·.entry.callback)).Nodup
  madeBy : ∀ c ∈ created, ∃ t ∈ drawn, c.entry.callback = sha.of t
  queued : ∀ library, ∀ e ∈ (queueOf files library).messages, ⟨library, deleted.count library, e⟩ ∈ created
  next : ∀ c ∈ created, c.era = deleted.count c.library → c.entry.seq < (queueOf files c.library).next
  eras : ∀ c ∈ created, c.era ≤ deleted.count c.library
  order : created.Pairwise fun c d => c.library = d.library → c.era = d.era → c.entry.seq < d.entry.seq
  bound : ∀ r ∈ tableOf files, ∀ c ∈ created, c.entry.callback = r.hash → Binds sha clock files r c
  accepted : ∀ r ∈ tableOf files, ∀ a, r.accepted = some a →
    ∃ c ∈ created, c.entry.callback = r.hash ∧ a = c.accepted sha

theorem bound_init (sha : Digest) : Bound sha [] [] [] 0 [] where
  callbacksFile f h := by cases h
  queueFile library f h := by cases h
  version r h := by cases h
  expires r h := by cases h
  issued r h := by cases h
  hashes := List.nodup_nil
  once := List.nodup_nil
  madeBy c h := by cases h
  queued library e h := by cases h
  next c h := by cases h
  eras c h := by cases h
  order := .nil
  bound r h := by cases h
  accepted r h := by cases h

theorem Binds.later {c : Created} {clock' : ℕ} (h : Binds sha clock files r c) (hclock : clock ≤ clock') :
    Binds sha clock' files r c := by
  refine ⟨h.library, h.outlives, ?_⟩
  rcases h.kept with hbound | hqueued | hexpired
  · exact .inl hbound
  · exact .inr (.inl hqueued)
  · exact .inr (.inr (hexpired.trans hclock))

theorem Bound.later {clock' : ℕ} {drawn' : List String} (h : Bound sha drawn deleted created clock files)
    (hclock : clock ≤ clock') (hdrawn : ∀ t ∈ drawn, t ∈ drawn') :
    Bound sha drawn' deleted created clock' files := { h with
  expires r hr := (h.expires r hr).trans (saturatingAdd_mono hclock TTL_MS)
  issued r hr := by
    obtain ⟨t, ht, hhash⟩ := h.issued r hr
    exact ⟨t, hdrawn t ht, hhash⟩
  madeBy c hc := by
    obtain ⟨t, ht, hhash⟩ := h.madeBy c hc
    exact ⟨t, hdrawn t ht, hhash⟩
  bound r hr c hc hcallback := (h.bound r hr c hc hcallback).later hclock }

/-- The one entry a capability made. -/
theorem Bound.unique (h : Bound sha drawn deleted created clock files) {c d : Created} (hc : c ∈ created)
    (hd : d ∈ created) (heq : c.entry.callback = d.entry.callback) : c = d :=
  List.inj_on_of_nodup_map h.once hc hd heq

/-! ## One file is written -/

/-- A record as another request leaves it: the same capability, its binding added at most. -/
structure Settles (sha : Digest) (created : List Created) (r r' : Callback) : Prop where
  hash : r'.hash = r.hash
  library : r'.library = r.library
  expiresAt : r'.expiresAt = r.expiresAt
  version : r'.bindingVersion = 1
  accepted : r'.accepted = r.accepted ∨
    ∃ c ∈ created, c.entry.callback = r.hash ∧ r'.accepted = some (c.accepted sha)

section

variable (h : Bound sha drawn deleted created clock files)
include h

theorem Bound.settles_self (hr : r ∈ tableOf files) :
    Settles sha created r r := ⟨rfl, rfl, rfl, h.version r hr, .inl rfl⟩

/-- The table is saved, each record of it a settled one of before. -/
theorem Bound.retable
    (hhashes : (l.map Callback.hash).Nodup) (hsettles : ∀ r' ∈ l, ∃ r ∈ tableOf files, Settles sha created r r') :
    Bound sha drawn deleted created clock (Assoc.set files .callbacks (.callbacks l)) := by
  rw [← tableOf_set_callbacks files l] at hsettles
  exact { h with
    callbacksFile f hf := by
      rw [Assoc.get_set] at hf
      cases hf
      exact ⟨l, rfl⟩
    queueFile library f hf := by
      rw [Assoc.get_set] at hf
      exact h.queueFile library f hf
    version r' hr' := by
      obtain ⟨r, hr, hset⟩ := hsettles r' hr'
      exact hset.version
    expires r' hr' := by
      obtain ⟨r, hr, hset⟩ := hsettles r' hr'
      rw [hset.expiresAt]
      exact h.expires r hr
    issued r' hr' := by
      obtain ⟨r, hr, hset⟩ := hsettles r' hr'
      rw [hset.hash]
      exact h.issued r hr
    hashes := by
      rw [tableOf_set_callbacks]
      exact hhashes
    queued := by simpa using h.queued
    next := by simpa using h.next
    bound r' hr' c hc hcallback := by
      obtain ⟨r, hr, hset⟩ := hsettles r' hr'
      rw [hset.hash] at hcallback
      have hbinds := h.bound r hr c hc hcallback
      refine ⟨hbinds.library.trans hset.library.symm, hset.expiresAt ▸ hbinds.outlives, ?_⟩
      rw [hset.library, hset.expiresAt, queueOf_set_callbacks]
      rcases hset.accepted with hsame | ⟨d, hd, hcallback', hbound⟩
      · rw [hsame]
        exact hbinds.kept
      · -- the capability made one entry, so the binding that was added is the binding to it
        rw [h.unique hc hd (hcallback.trans hcallback'.symm)]
        exact .inl hbound
    accepted r' hr' a ha := by
      obtain ⟨r, hr, hset⟩ := hsettles r' hr'
      rw [hset.hash]
      rcases hset.accepted with hsame | ⟨d, hd, hcallback', hbound⟩
      · exact h.accepted r hr a (hsame ▸ ha)
      · rw [hbound] at ha
        exact ⟨d, hd, hcallback', (Option.some.inj ha).symm⟩ }

/-- A capability is issued under a token drawn now. -/
theorem Bound.issue {token : String}
    (hl : l.Sublist (tableOf files)) (hfresh : token ∉ drawn) (hhash : r.hash = sha.of token)
    (hexpires : r.expiresAt = saturatingAdd clock TTL_MS) (haccepted : r.accepted = none)
    (hversion : r.bindingVersion = 1) :
    Bound sha (token :: drawn) deleted created clock (Assoc.set files .callbacks (.callbacks (l ++ [r]))) := by
  have hlater : Bound sha (token :: drawn) deleted created clock files :=
    h.later le_rfl fun t ht => List.mem_cons_of_mem _ ht
  have hunissued : ∀ t ∈ drawn, sha.of t ≠ r.hash := by
    intro t ht heq
    rw [hhash, sha.of_eq] at heq
    exact hfresh (heq ▸ ht)
  -- a record of the new table is one of before, or the new one
  have hcases : ∀ {p : Callback → Prop}, (∀ r' ∈ tableOf files, p r') → p r →
      ∀ r' ∈ tableOf (Assoc.set files .callbacks (.callbacks (l ++ [r]))), p r' := by
    intro p hp hr
    rw [tableOf_set_callbacks]
    exact List.forall_mem_snoc (fun r' hr' => hp r' (hl.subset hr')) hr
  exact { hlater with
    callbacksFile f hf := by
      rw [Assoc.get_set] at hf
      cases hf
      exact ⟨_, rfl⟩
    queueFile library f hf := by
      rw [Assoc.get_set] at hf
      exact h.queueFile library f hf
    version := hcases h.version hversion
    expires := hcases h.expires hexpires.le
    issued := hcases hlater.issued ⟨token, List.mem_cons_self, hhash⟩
    hashes := by
      rw [tableOf_set_callbacks]
      refine List.nodup_map_snoc (h.hashes.sublist (hl.map _)) fun r' hr' hab => ?_
      obtain ⟨t, ht, heq⟩ := h.issued r' (hl.subset hr')
      exact hunissued t ht (heq.symm.trans hab)
    queued := by simpa using h.queued
    next := by simpa using h.next
    bound := by
      refine hcases (fun r' hr' c hc hcallback => ?_) fun c hc hcallback => ?_
      · have hbinds := h.bound r' hr' c hc hcallback
        refine ⟨hbinds.library, hbinds.outlives, ?_⟩
        rw [queueOf_set_callbacks]
        exact hbinds.kept
      · -- nothing was made under a token that was not drawn
        obtain ⟨t, ht, heq⟩ := h.madeBy c hc
        exact absurd (heq.symm.trans hcallback) (hunissued t ht)
    accepted := by
      refine hcases h.accepted fun a ha => ?_
      rw [haccepted] at ha
      cases ha }

/-- A queue is saved that has no entry it had not before and no smaller number. What is missing from it has its
binding in the table, or belongs to an expired capability. -/
theorem Bound.requeue {q : Queue}
    (hmessages : ∀ e ∈ q.messages, e ∈ (queueOf files library).messages)
    (hnext : (queueOf files library).next ≤ q.next)
    (hgone : ∀ r ∈ tableOf files, ∀ c ∈ created, c.entry.callback = r.hash → r.library = library →
      c.entry ∈ (queueOf files library).messages → c.entry ∉ q.messages →
      r.accepted = some (c.accepted sha) ∨ r.expiresAt ≤ clock) :
    Bound sha drawn deleted created clock (Assoc.set files (.queue library) (.queue q)) := { h with
  callbacksFile f hf := by
    rw [Assoc.get_set] at hf
    exact h.callbacksFile f hf
  queueFile library' f hf := by
    rcases Assoc.get_of_set hf with ⟨-, rfl⟩ | ⟨-, hf⟩
    · exact ⟨q, rfl⟩
    · exact h.queueFile library' f hf
  version := by simpa using h.version
  expires := by simpa using h.expires
  issued := by simpa using h.issued
  hashes := by simpa using h.hashes
  queued library' e he := by
    rw [queueOf_set_queue] at he
    split_ifs at he with heq
    · subst heq
      exact h.queued library' e (hmessages e he)
    · exact h.queued library' e he
  next c hc hera := by
    have hlt := h.next c hc hera
    rw [queueOf_set_queue]
    split_ifs with heq
    · rw [heq] at hlt
      omega
    · exact hlt
  bound r hr c hc hcallback := by
    rw [tableOf_set_queue] at hr
    have hbinds := h.bound r hr c hc hcallback
    refine ⟨hbinds.library, hbinds.outlives, ?_⟩
    rw [queueOf_set_queue]
    split_ifs with heq
    · rcases hbinds.kept with hbound | hqueued | hexpired
      · exact .inl hbound
      · by_cases hin : c.entry ∈ q.messages
        · exact .inr (.inl hin)
        · rw [heq] at hqueued
          rcases hgone r hr c hc hcallback heq hqueued hin with hbound | hexpired
          · exact .inl hbound
          · exact .inr (.inr hexpired)
      · exact .inr (.inr hexpired)
    · exact hbinds.kept
  accepted := by simpa using h.accepted }

/-- An entry of the first capability that has none. -/
theorem Bound.push (sealed : String) (hr : r ∈ tableOf files)
    (hlibrary : r.library = library) (hnew : ∀ c ∈ created, c.entry.callback ≠ r.hash) {n : ℕ}
    (hn : (queueOf files library).next ≤ n) :
    Bound sha drawn deleted (created ++ [⟨library, deleted.count library, ⟨n, sealed, r.hash, clock⟩⟩]) clock
      (Assoc.set files (.queue library)
        (.queue ⟨n + 1, (queueOf files library).messages ++ [⟨n, sealed, r.hash, clock⟩]⟩)) where
  callbacksFile f hf := by
    rw [Assoc.get_set] at hf
    exact h.callbacksFile f hf
  queueFile library' f hf := by
    rcases Assoc.get_of_set hf with ⟨-, rfl⟩ | ⟨-, hf⟩
    · exact ⟨_, rfl⟩
    · exact h.queueFile library' f hf
  version := by simpa using h.version
  expires := by simpa using h.expires
  issued := by simpa using h.issued
  hashes := by simpa using h.hashes
  once := List.nodup_map_snoc h.once hnew
  madeBy := List.forall_mem_snoc h.madeBy (h.issued r hr)
  queued library' e he := by
    rw [queueOf_set_queue] at he
    split_ifs at he with heq
    · subst heq
      rcases List.mem_snoc.mp he with hold | rfl
      · exact List.mem_append_left _ (h.queued library' e hold)
      · exact List.mem_concat_self
    · exact List.mem_append_left _ (h.queued library' e he)
  next c hc hera := by
    rw [queueOf_set_queue]
    rcases List.mem_append.mp hc with hold | hlast
    · have hlt := h.next c hold hera
      split_ifs with heq
      · rw [heq] at hlt
        simp only
        omega
      · exact hlt
    · rw [List.mem_singleton.mp hlast]
      simp
  eras := List.forall_mem_snoc h.eras le_rfl
  order := by
    rw [List.pairwise_append]
    refine ⟨h.order, List.pairwise_singleton _ _, ?_⟩
    intro c hc d hd hlib hera
    rw [List.mem_singleton.mp hd] at hlib hera ⊢
    have hlt := h.next c hc (by rw [hera, hlib])
    rw [hlib] at hlt
    exact hlt.trans_le hn
  bound r' hr' c hc hcallback := by
    rw [tableOf_set_queue] at hr'
    rcases List.mem_append.mp hc with hold | hlast
    · have hbinds := h.bound r' hr' c hold hcallback
      refine ⟨hbinds.library, hbinds.outlives, ?_⟩
      rcases hbinds.kept with hbound | hqueued | hexpired
      · exact .inl hbound
      · refine .inr (.inl ?_)
        rw [queueOf_set_queue]
        split_ifs with heq
        · rw [heq] at hqueued
          exact List.mem_append_left _ hqueued
        · exact hqueued
      · exact .inr (.inr hexpired)
    · -- the record is the one whose capability made the entry
      rw [List.mem_singleton.mp hlast] at hcallback ⊢
      have hsame : r = r' := List.inj_on_of_nodup_map h.hashes hr hr' hcallback
      subst hsame
      refine ⟨hlibrary.symm, h.expires r hr, .inr (.inl ?_)⟩
      rw [queueOf_set_queue, if_pos hlibrary]
      exact List.mem_concat_self
  accepted r' hr' a ha := by
    rw [tableOf_set_queue] at hr'
    obtain ⟨c, hc, hbound⟩ := h.accepted r' hr' a ha
    exact ⟨c, List.mem_append_left _ hc, hbound⟩

/-- A library without a queue begins a new one, if any. -/
theorem Bound.forget (hempty : (queueOf files library).messages = []) :
    Bound sha drawn (library :: deleted) created clock files := { h with
  queued library' e he := by
    have hne : library ≠ library' := by
      rintro rfl
      rw [hempty] at he
      cases he
    rw [List.count_cons_of_ne hne]
    exact h.queued library' e he
  next c hc hera := by
    have hle := h.eras c hc
    by_cases heq : c.library = library
    · subst heq
      rw [List.count_cons_self] at hera
      omega
    · rw [List.count_cons_of_ne (Ne.symm heq)] at hera
      exact h.next c hc hera
  eras c hc := (h.eras c hc).trans (List.count_le_count_cons) }

/-- The queue of a library that has no capability is deleted. -/
theorem Bound.erase (hnone : ∀ r ∈ tableOf files, r.library ≠ library) :
    Bound sha drawn (library :: deleted) created clock (Assoc.erase files (.queue library)) := { h with
  callbacksFile f hf := by
    rw [Assoc.get_erase] at hf
    exact h.callbacksFile f hf
  queueFile library' f hf := by
    exact h.queueFile library' f (Assoc.get_of_erase hf)
  version := by simpa using h.version
  expires := by simpa using h.expires
  issued := by simpa using h.issued
  hashes := by simpa using h.hashes
  queued library' e he := by
    rw [queueOf_erase_queue] at he
    split_ifs at he with heq
    · cases he
    · rw [List.count_cons_of_ne (Ne.symm heq)]
      exact h.queued library' e he
  next c hc hera := by
    have hle := h.eras c hc
    by_cases heq : c.library = library
    · subst heq
      rw [List.count_cons_self] at hera
      omega
    · rw [List.count_cons_of_ne (Ne.symm heq)] at hera
      rw [queueOf_erase_queue, if_neg heq]
      exact h.next c hc hera
  eras c hc := (h.eras c hc).trans (List.count_le_count_cons)
  bound r hr c hc hcallback := by
    rw [tableOf_erase_queue] at hr
    have hbinds := h.bound r hr c hc hcallback
    refine ⟨hbinds.library, hbinds.outlives, ?_⟩
    rw [queueOf_erase_queue, if_neg (hnone r hr)]
    exact hbinds.kept
  accepted := by simpa using h.accepted }

end

end DenEdge.Receipts
