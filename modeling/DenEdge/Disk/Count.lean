import DenEdge.Disk.Files

/-!
# The count of the store's bytes

Where the calls end orderly, the counters are the sizes of the files (`count_matches_files`); and no call takes a
counter past its cap, however its operations end (`step_within`). A temporary file that a crash left behind is
counted when the store opens and never taken off again (`leftover_stays_counted`).

A call is followed by how far the counters are ahead of the files (`Ahead`).
-/

namespace DenEdge.Disk

/-! ## Sizes -/

/-- What the inbox's counter counts of bytes of a namespace. -/
def share (ns : String) (bytes : ℕ) : ℕ := if ns = "inbox" then bytes else 0

@[simp] theorem share_zero (ns : String) : share ns 0 = 0 := by simp [share]

namespace Dir

variable (dir : Dir) (file : Path)

theorem weightAt_len : Assoc.weightAt (fun _ size => size) dir.entries file = dir.len file := by
  simp [Assoc.weightAt, len, get]

theorem weightAt_inbox :
    Assoc.weightAt (fun (path : Path) size => if path.1 = "inbox" then size else 0) dir.entries file =
    share file.1 (dir.len file) := by
  unfold Assoc.weightAt share len get
  cases Assoc.get dir.entries file <;> simp

theorem total_set (size : ℕ) : (dir.set file size).total + dir.len file = dir.total + size := by
  have h := Assoc.total_set (fun (_ : Path) size => size) dir.nodup file size
  rwa [weightAt_len] at h

theorem inbox_set (size : ℕ) :
    (dir.set file size).inbox + share file.1 (dir.len file) = dir.inbox + share file.1 size := by
  have h := Assoc.total_set (fun (path : Path) size => if path.1 = "inbox" then size else 0) dir.nodup file size
  rwa [weightAt_inbox] at h

theorem total_erase : (dir.erase file).total + dir.len file = dir.total := by
  have h := Assoc.total_erase (fun (_ : Path) size => size) dir.nodup file
  rwa [weightAt_len] at h

theorem inbox_erase : (dir.erase file).inbox + share file.1 (dir.len file) = dir.inbox := by
  have h := Assoc.total_erase (fun (path : Path) size => if path.1 = "inbox" then size else 0) dir.nodup file
  rwa [weightAt_inbox] at h

theorem len_set (size : ℕ) (other : Path) :
    (dir.set file size).len other = if other = file then size else dir.len other := by
  have h := Assoc.get_set dir.entries file other size
  unfold len get set
  simp only [h]
  split_ifs <;> simp

theorem len_erase (other : Path) : (dir.erase file).len other = if other = file then 0 else dir.len other := by
  have h := Assoc.get_erase dir.entries file other
  unfold len get erase
  simp only [h]
  split_ifs <;> simp

end Dir

theorem path_ne_tmpPath (ns name ext : String) : path ns name ext ≠ tmpPath ns name ext := by
  intro h
  have hlength := congrArg (fun p => p.2.length) h
  simp [path, tmpPath] at hlength

/-! ## How far the counters are ahead -/

/-- The counters are some bytes of a namespace ahead of the files. -/
structure Ahead (d : Store) (ns : String) (bytes : ℕ) : Prop where
  used : d.quota.used = d.files.total + bytes
  inbox : d.quota.inboxUsed = d.files.inbox + share ns bytes

/-- The counters are the sizes of the files. -/
structure Exact (d : Store) : Prop where
  used : d.quota.used = d.files.total
  inbox : d.quota.inboxUsed = d.files.inbox

variable {d : Store} {ns : String} {bytes : ℕ}

theorem Exact.ahead (h : Exact d) (ns : String) : Ahead d ns 0 := ⟨h.used, by rw [h.inbox, share_zero]; rfl⟩

theorem Ahead.exact (h : Ahead d ns 0) : Exact d := ⟨h.used, by rw [h.inbox, share_zero]; rfl⟩

/-- What has been taken is ahead of the files until it is written. -/
theorem Exact.reserve (h : Exact d) {quota : Quota} (hq : d.quota.reserve ns bytes = some quota) :
    Ahead ⟨d.files, quota⟩ ns bytes := by
  have htake : ∀ {used limit used' : ℕ}, take used bytes limit = some used' → used' = used + bytes := by
    intro used limit used' ht
    unfold take at ht
    split_ifs at ht
    exact (Option.some.inj ht).symm
  unfold Quota.reserve at hq
  split_ifs at hq with hns
  · split at hq
    · cases hq
    rename_i inboxUsed hinbox
    obtain ⟨used, hused, rfl⟩ := Option.map_eq_some_iff.mp hq
    have h₁ := htake hused
    have h₂ := htake hinbox
    exact ⟨by rw [h₁, h.used], by simp [h₂, h.inbox, share, hns]⟩
  · obtain ⟨used, hused, rfl⟩ := Option.map_eq_some_iff.mp hq
    have h₁ := htake hused
    exact ⟨by rw [h₁, h.used], by simp [h.inbox, share, hns]⟩

section

variable (h : Ahead d ns bytes)
include h

theorem Ahead.release (back : ℕ) (hle : back ≤ bytes) :
    Ahead (d.release ns back) ns (bytes - back) := by
  have hused := h.used
  have hinbox := h.inbox
  refine ⟨?_, ?_⟩
  · simp only [Store.release, Quota.release, giveBack]
    omega
  · simp only [Store.release, Quota.release, giveBack, share] at hinbox ⊢
    split_ifs at hinbox ⊢ <;> omega

/-- All that is ahead is given back. -/
theorem Ahead.settle {back : ℕ} (heq : back = bytes) : Exact (d.release ns back) := by
  subst heq
  have hrelease := h.release back le_rfl
  rw [Nat.sub_self] at hrelease
  exact hrelease.exact

/-- A file of the namespace is written within what is ahead. -/
theorem Ahead.write (file : Path) (hns : file.1 = ns) (size : ℕ) (hle : size ≤ d.files.len file + bytes) :
    Ahead { d with files := d.files.set file size } ns (d.files.len file + bytes - size) := by
  have hused := h.used
  have hinbox := h.inbox
  have htotal := d.files.total_set file size
  have hshare := d.files.inbox_set file size
  rw [hns] at hshare
  refine ⟨?_, ?_⟩
  · simp only
    omega
  · simp only [share] at hinbox hshare ⊢
    split_ifs at hinbox hshare ⊢ <;> omega

theorem Ahead.erase (file : Path) (hns : file.1 = ns) :
    Ahead { d with files := d.files.erase file } ns (d.files.len file + bytes) := by
  have hused := h.used
  have hinbox := h.inbox
  have htotal := d.files.total_erase file
  have hshare := d.files.inbox_erase file
  rw [hns] at hshare
  refine ⟨?_, ?_⟩
  · simp only
    omega
  · simp only [share] at hinbox hshare ⊢
    split_ifs at hinbox hshare ⊢ <;> omega

/-- A temporary file that was empty before is written and removed. -/
theorem Ahead.tmp_removed {tmp : Path} (htmp : d.files.len tmp = 0)
    (left : ℕ) : Ahead { d with files := (d.files.set tmp left).erase tmp } ns bytes := by
  have hlen : (d.files.set tmp left).len tmp = left := by rw [Dir.len_set, if_pos rfl]
  have ht₁ := d.files.total_set tmp left
  have ht₂ := (d.files.set tmp left).total_erase tmp
  have hi₁ := d.files.inbox_set tmp left
  have hi₂ := (d.files.set tmp left).inbox_erase tmp
  rw [hlen] at ht₂ hi₂
  rw [htmp, share_zero] at hi₁
  have hused := h.used
  have hinbox := h.inbox
  refine ⟨?_, ?_⟩
  · simp only
    omega
  · simp only
    omega

variable {name ext : String}

/-- A record renamed into place from a temporary file that was empty before. -/
theorem Ahead.renamed (htmp : d.files.len (tmpPath ns name ext) = 0)
    {size : ℕ} (hle : size ≤ d.files.len (path ns name ext) + bytes) :
    Ahead { d with
      files := (d.files.set (tmpPath ns name ext) size).rename (tmpPath ns name ext) (path ns name ext) } ns
      (d.files.len (path ns name ext) + bytes - size) := by
  have hne := path_ne_tmpPath ns name ext
  set files' := (d.files.set (tmpPath ns name ext) size).erase (tmpPath ns name ext)
  have hlen : (d.files.set (tmpPath ns name ext) size).len (tmpPath ns name ext) = size := by
    rw [Dir.len_set, if_pos rfl]
  have hlenPath : files'.len (path ns name ext) = d.files.len (path ns name ext) := by
    rw [Dir.len_erase, if_neg hne, Dir.len_set, if_neg hne]
  have hahead : Ahead { d with files := files' } ns bytes := h.tmp_removed htmp size
  have hwrite := hahead.write (path ns name ext) rfl size (by simpa [hlenPath] using hle)
  rw [Dir.rename, hlen]
  simpa only [hlenPath] using hwrite

end

/-! ## Calls that end orderly -/

/-- The caller was not dropped. -/
def Fate.waited : Fate → Bool
  | .dropped _ => false
  | _ => true

/-- What a call needs for the count to stay exact: it is not dropped once it has reserved or removed something, no
temporary file with anything in it is in its way, a file with something in it can be asked for its size, and what
a failed write leaves on disk can be removed, cut back, or asked for its size. -/
def Orderly (d : Store) : Call → Prop
  | .replaceFile ns name ext _ io =>
    d.files.len (tmpPath ns name ext) = 0 ∧ (io.stat = .err → d.files.len (path ns name ext) = 0) ∧
      (io.create.waited && io.write.waited && io.sync.waited && io.rename.waited && io.remove.waited) = true ∧
      (io.create = .err ∨ (io.write = .ok ∧ io.sync = .ok ∧ io.rename = .ok) ∨ io.remove = .ok)
  | .appendFile _ _ _ _ io =>
    (io.opened.waited && io.stat.waited && io.write.waited && io.sync.waited && io.truncate.waited &&
        io.restat.waited) = true ∧
      ((io.write = .ok ∧ io.sync = .ok) ∨ io.truncate = .ok ∨ io.restat = .ok)
  | .deleteFile ns name ext io =>
    (io.stat = .err → d.files.len (path ns name ext) = 0) ∧ io.remove ≠ .dropped true
  | .sweepInbox _ io => io.remove ≠ .dropped true

variable {io : ReplaceIo} {new : ℕ} {q : Quota}

/-- What writing a record to its temporary file and renaming it does, where it is waited for: the record is in
place, or the temporary file is left, which is nothing where it could not be made. -/
theorem writeTmp_cases {tmp file : Path} {files : Dir}
    (hwaited : (io.create.waited && io.write.waited && io.sync.waited && io.rename.waited &&
      io.remove.waited) = true) :
    (files.writeTmp io tmp file new = (.ok, (files.set tmp new).rename tmp file)) ∨
      (io.create = .err ∧ files.writeTmp io tmp file new = (.err, files)) ∨
      (¬ (io.write = .ok ∧ io.sync = .ok ∧ io.rename = .ok) ∧ io.create ≠ .err ∧
        ∃ left, files.writeTmp io tmp file new = (.err, files.set tmp left)) := by
  simp only [Bool.and_eq_true] at hwaited
  obtain ⟨⟨⟨⟨hcreate, hwrite⟩, hsync⟩, hrename⟩, -⟩ := hwaited
  unfold Dir.writeTmp
  cases hc : io.create with
  | dropped => simp [hc, Fate.waited] at hcreate
  | err => exact .inr (.inl ⟨rfl, rfl⟩)
  | ok =>
    cases hw : io.write with
    | dropped => simp [hw, Fate.waited] at hwrite
    | err => exact .inr (.inr ⟨by simp, by simp, _, rfl⟩)
    | ok =>
      cases hs : io.sync with
      | dropped => simp [hs, Fate.waited] at hsync
      | err => exact .inr (.inr ⟨by simp, by simp, _, rfl⟩)
      | ok =>
        cases hr : io.rename with
        | dropped => simp [hr, Fate.waited] at hrename
        | err => exact .inr (.inr ⟨by simp, by simp, _, rfl⟩)
        | ok => exact .inl rfl

theorem replaceOver_exact (h : Exact d) (htmp : d.files.len (tmpPath ns name ext) = 0)
    (hwaited : (io.create.waited && io.write.waited && io.sync.waited && io.rename.waited &&
      io.remove.waited) = true)
    (hclean : io.create = .err ∨ (io.write = .ok ∧ io.sync = .ok ∧ io.rename = .ok) ∨ io.remove = .ok) :
    Exact (d.replaceOver ns name ext (d.files.len (path ns name ext)) new io).2 := by
  unfold Store.replaceOver
  set old := d.files.len (path ns name ext)
  cases hreserve : d.quota.reserve ns (new - old) with
  | none => exact h
  | some quota =>
    have hahead := h.reserve hreserve
    have hremove : io.remove = .ok ∨ io.remove = .err := by
      cases hr : io.remove with
      | ok => exact .inl rfl
      | err => exact .inr rfl
      | dropped => simp [hr, Fate.waited] at hwaited
    have hcases : (d.files.writeTmp io (tmpPath ns name ext) (path ns name ext) new = _) ∨ _ ∨ _ :=
      writeTmp_cases hwaited
    rcases hcases with hok | ⟨hcreate, herr⟩ | ⟨hfailed, hcreate, left, herr⟩
    · simp only [hok]
      have hrenamed : Ahead ⟨_, quota⟩ ns (old + (new - old) - new) := hahead.renamed htmp (by simp only; omega)
      exact hrenamed.settle (by omega)
    · simp only [herr]
      rcases hremove with hr | hr
      · -- the temporary file that is removed was empty
        have herase := hahead.erase (tmpPath ns name ext) rfl
        simp only [htmp, Nat.zero_add] at herase
        simp only [hr]
        exact herase.settle rfl
      · simp only [hr]
        exact hahead.settle rfl
    · have hr : io.remove = .ok := by
        rcases hclean with hc | hc | hr
        · exact absurd hc hcreate
        · exact absurd hc hfailed
        · exact hr
      simp only [herr, hr]
      exact (hahead.tmp_removed htmp left).settle rfl

theorem replaceFile_exact (h : Exact d)
    (horderly : Orderly d (.replaceFile ns name ext new io)) : Exact (d.replaceFile ns name ext new io).2 := by
  obtain ⟨htmp, hstat, hwaited, hclean⟩ := horderly
  have hover : Exact (d.replaceOver ns name ext (d.files.len (path ns name ext)) new io).2 :=
    replaceOver_exact h htmp hwaited hclean
  unfold Store.replaceFile
  split
  · exact h
  · exact hover
  · rename_i herr
    rw [hstat herr] at hover
    exact hover

/-- Cutting an append back, or asking how much of it stayed. -/
theorem cutBack_exact {file : Path} (hns : file.1 = ns) {before len after : ℕ} {io : AppendIo}
    (h : Ahead d ns (before + len - after)) (hafter : d.files.len file = after) (hle : before ≤ after)
    (hle' : after ≤ before + len) (hwaited : (io.truncate.waited && io.restat.waited) = true)
    (hclean : io.truncate = .ok ∨ io.restat = .ok) : Exact (d.cutBack ns file before len io).2 := by
  unfold Store.cutBack
  cases htruncate : io.truncate with
  | dropped => simp [htruncate, Fate.waited] at hwaited
  | ok =>
    have hwrite := h.write file hns before (by omega)
    exact hwrite.settle (by omega)
  | err =>
    have hr : io.restat = .ok := by
      rcases hclean with ht | hr
      · rw [htruncate] at ht
        cases ht
      · exact hr
    simp only [hr]
    exact h.settle (by rw [hafter])

theorem appendFile_exact (h : Exact d) {len : ℕ} {io : AppendIo}
    (horderly : Orderly d (.appendFile ns name ext len io)) : Exact (d.appendFile ns name ext len io).2 := by
  obtain ⟨hwaited, hclean⟩ := horderly
  simp only [Bool.and_eq_true] at hwaited
  obtain ⟨⟨⟨⟨⟨hopened, hstat⟩, hwrite⟩, hsync⟩, htruncate⟩, hrestat⟩ := hwaited
  unfold Store.appendFile
  set file := path ns name ext
  have hns : file.1 = ns := rfl
  cases hreserve : d.quota.reserve ns len with
  | none => exact h
  | some quota =>
    have hahead := h.reserve hreserve
    -- the file that is opened is as long as it was
    set created := d.files.set file (d.files.len file)
    have hopen : Ahead ⟨created, quota⟩ ns len := by
      have hset := hahead.write file hns (d.files.len file) (Nat.le_add_right _ _)
      simp only [Nat.add_sub_cancel_left] at hset
      exact hset
    have hgrown : ∀ more, more ≤ len →
        Ahead ⟨created.set file (created.len file + more), quota⟩ ns
        (created.len file + len - (created.len file + more)) :=
      fun more hmore => hopen.write file hns (created.len file + more) (by simp only; omega)
    have hcut : ∀ more, more ≤ len → (io.truncate = .ok ∨ io.restat = .ok) →
        Exact (Store.cutBack ns file (created.len file) len
        io ⟨created.set file (created.len file + more), quota⟩).2 := by
      intro more hmore hcleaned
      refine cutBack_exact hns (hgrown more hmore) ?_ (Nat.le_add_right _ _) (by omega) ?_ hcleaned
      · rw [Dir.len_set, if_pos rfl]
      · rw [htruncate, hrestat]
        rfl
    cases ho : io.opened with
    | dropped => simp [ho, Fate.waited] at hopened
    | err => exact hahead.settle rfl
    | ok =>
      cases hst : io.stat with
      | dropped => simp [hst, Fate.waited] at hstat
      | err => exact hopen.settle rfl
      | ok =>
        cases hw : io.write with
        | dropped => simp [hw, Fate.waited] at hwrite
        | err => exact hcut _ (min_le_right _ _) (hclean.resolve_left (by simp [hw]))
        | ok =>
          cases hsy : io.sync with
          | dropped => simp [hsy, Fate.waited] at hsync
          | err => exact hcut len le_rfl (hclean.resolve_left (by simp [hsy]))
          | ok =>
            have hfull := hgrown len le_rfl
            rw [Nat.sub_self] at hfull
            exact hfull.exact

/-- A file is removed, and what it held is given back. -/
theorem erase_exact (h : Exact d) {file : Path} (hns : file.1 = ns) :
    Exact (Store.release { d with files := d.files.erase file } ns (d.files.len file)) := by
  have herase := (h.ahead ns).erase file hns
  exact herase.settle rfl

theorem deleteFile_exact (h : Exact d) {io : DeleteIo}
    (horderly : Orderly d (.deleteFile ns name ext io)) : Exact (d.deleteFile ns name ext io).2 := by
  obtain ⟨hstat, hremove⟩ := horderly
  have hover : Exact (d.deleteOver ns (path ns name ext) (d.files.len (path ns name ext)) io).2 := by
    unfold Store.deleteOver
    cases hr : io.remove with
    | err => exact h
    | ok => exact erase_exact h rfl
    | dropped took =>
      cases took with
      | true => exact absurd hr hremove
      | false => exact h
  unfold Store.deleteFile
  split
  · exact h
  · exact hover
  · rename_i herr
    rw [hstat herr] at hover
    exact hover

theorem sweepInbox_exact (h : Exact d) {io : SweepIo} (horderly : Orderly d (.sweepInbox name io)) :
    Exact (d.sweepInbox name io).2 := by
  unfold Store.sweepInbox
  simp only
  split
  · exact h
  · exact h
  split
  · exact h
  rename_i size hsize
  have hlen : d.files.len ("inbox", name) = size := by simp [Dir.len, hsize]
  split
  · exact h
  · exact h
  · exact h
  · exact h
  split_ifs
  · split
    · exact h
    · rename_i took hr
      cases took with
      | true => exact absurd hr horderly
      | false => exact h
    · rw [← hlen]
      exact erase_exact h rfl
  · exact h

/-- **An orderly call keeps the count exact.** -/
theorem step_exact (h : Exact d) {call : Call} (horderly : Orderly d call) : Exact (d.step call) := by
  cases call with
  | replaceFile => exact replaceFile_exact h horderly
  | appendFile => exact appendFile_exact h horderly
  | deleteFile => exact deleteFile_exact h horderly
  | sweepInbox => exact sweepInbox_exact h horderly

/-! ## The cap -/

/-- The counters are past their caps only as far as they were before. -/
structure Quota.Within (q q' : Quota) : Prop where
  cap : q'.cap = q.cap
  used : q'.used ≤ max q.used q.cap
  inbox : q'.inboxUsed ≤ max q.inboxUsed (q.cap / INBOX_SHARE)

theorem Quota.Within.refl (q : Quota) : q.Within q := ⟨rfl, le_max_left _ _, le_max_left _ _⟩

theorem Quota.Within.release {q' : Quota} (h : q.Within q') (ns : String) (bytes : ℕ) :
    q.Within (q'.release ns bytes) := by
  have hused := h.used
  have hinbox := h.inbox
  refine ⟨h.cap, ?_, ?_⟩
  · exact le_trans (Nat.sub_le _ _) hused
  · simp only [Quota.release, giveBack]
    split_ifs
    · exact le_trans (Nat.sub_le _ _) hinbox
    · exact hinbox

theorem take_le {used bytes limit used' : ℕ} (h : take used bytes limit = some used') :
    used' ≤ max used limit := by
  unfold take at h
  split_ifs at h with hfits
  have := Option.some.inj h
  omega

theorem Quota.Within.reserve {q' : Quota} {ns : String} {bytes : ℕ} (h : q.reserve ns bytes = some q') :
    q.Within q' := by
  unfold Quota.reserve at h
  split_ifs at h
  · split at h
    · cases h
    rename_i inboxUsed hinbox
    obtain ⟨used, hused, rfl⟩ := Option.map_eq_some_iff.mp h
    exact ⟨rfl, take_le hused, take_le hinbox⟩
  · obtain ⟨used, hused, rfl⟩ := Option.map_eq_some_iff.mp h
    exact ⟨rfl, take_le hused, le_max_left _ _⟩

theorem replaceOver_within (d : Store) (ns name ext : String) (old new : ℕ) (io : ReplaceIo) :
    d.quota.Within (d.replaceOver ns name ext old new io).2.quota := by
  unfold Store.replaceOver
  split
  · exact .refl _
  rename_i quota hreserve
  have hq : d.quota.Within quota := .reserve hreserve
  split
  · exact hq
  · exact hq.release _ _
  split
  · exact hq
  · exact hq.release _ _
  · exact hq.release _ _

theorem cutBack_within (hq : q.Within d.quota) (ns : String) (file : Path) (before len : ℕ) (io : AppendIo) :
    q.Within (d.cutBack ns file before len io).2.quota := by
  unfold Store.cutBack
  split
  · split_ifs <;> exact hq
  · exact hq.release _ _
  split
  · exact hq
  · exact hq.release _ _
  · exact hq.release _ _

theorem appendFile_within (d : Store) (ns name ext : String) (len : ℕ) (io : AppendIo) :
    d.quota.Within (d.appendFile ns name ext len io).2.quota := by
  unfold Store.appendFile
  split
  · exact .refl _
  rename_i quota hreserve
  have hq : d.quota.Within quota := .reserve hreserve
  split
  · exact hq.release _ _
  · exact hq
  split
  · exact hq.release _ _
  · exact hq
  split
  · exact cutBack_within hq _ _ _ _ _
  · exact hq
  split
  · exact cutBack_within hq _ _ _ _ _
  · exact hq
  · exact hq

theorem deleteOver_within (d : Store) (ns : String) (file : Path) (old : ℕ) (io : DeleteIo) :
    d.quota.Within (d.deleteOver ns file old io).2.quota := by
  unfold Store.deleteOver
  split
  · exact .refl _
  · split_ifs <;> exact .refl _
  · exact Quota.Within.release (.refl _) _ _

theorem sweepInbox_within (d : Store) (name : String) (io : SweepIo) :
    d.quota.Within (d.sweepInbox name io).2.quota := by
  have hsame := Quota.Within.refl d.quota
  unfold Store.sweepInbox
  simp only
  split
  · exact hsame
  · exact hsame
  split
  · exact hsame
  split
  · exact hsame
  · exact hsame
  · exact hsame
  · exact hsame
  split_ifs
  · split
    · exact hsame
    · split_ifs <;> exact hsame
    · exact hsame.release _ _
  · exact hsame

/-- **No call takes a counter past its cap**, however its operations end. -/
theorem step_within (d : Store) (call : Call) : d.quota.Within (d.step call).quota := by
  cases call with
  | replaceFile ns name ext size io =>
    change d.quota.Within (d.replaceFile ns name ext size io).2.quota
    unfold Store.replaceFile
    split
    · exact .refl _
    · exact replaceOver_within ..
    · exact replaceOver_within ..
  | appendFile ns name ext size io => exact appendFile_within d ns name ext size io
  | deleteFile ns name ext io =>
    change d.quota.Within (d.deleteFile ns name ext io).2.quota
    unfold Store.deleteFile
    split
    · exact .refl _
    · exact deleteOver_within ..
    · exact deleteOver_within ..
  | sweepInbox name io => exact sweepInbox_within d name io

/-! ## Runs -/

theorem inbox_le_total (files : Dir) : files.inbox ≤ files.total := by
  unfold Dir.inbox Dir.total
  induction files.entries with
  | nil => simp [Assoc.total]
  | cons =>
    rw [Assoc.total_cons, Assoc.total_cons]
    split_ifs <;> omega

theorem open_exact {files : Dir} (hsize : files.total < U64) (cap : ℕ) : Exact (Store.open files cap) :=
  ⟨Nat.mod_eq_of_lt hsize, Nat.mod_eq_of_lt (lt_of_le_of_lt (inbox_le_total files) hsize)⟩

/-- **The count of bytes is the size of the files.** On whatever files the store is opened, the counters are the
sizes of the files, and of those of the inbox, after every sequence of calls that end orderly; and no call,
orderly or not, leaves a counter past its cap that was not past it before. -/
theorem count_matches_files (files : Dir) (cap : ℕ) (hsize : files.total < U64) (calls : List Call)
    (horderly : Run.Meets Store.step Orderly (Store.open files cap) calls) :
    Exact (Run.exec Store.step (Store.open files cap) calls) ∧
      ∀ (d : Store) (call : Call), d.quota.Within (d.step call).quota := by
  refine ⟨Run.exec_inv ?_ (open_exact hsize cap) horderly, step_within⟩
  exact fun _ _ h horderly => step_exact h horderly

/-- A file that a crash left, and all operations of a call that end well. -/
def leftover : Dir := ⟨[(tmpPath "settings" "a" "json", 5)], by decide⟩

def sampleReplace : ReplaceIo := ⟨.ok, .ok, .ok, 0, .ok, .ok, .ok⟩

/-- The next replacement of the record renames the leftover temporary file away; its five bytes stay counted. -/
theorem leftover_stays_counted :
    let d := (Store.open leftover 100).step (.replaceFile "settings" "a" "json" 3 sampleReplace)
    d.quota.used = 8 ∧ d.files.total = 3 := by
  decide +kernel

theorem count_matches_files_sample :
    Exact (Run.exec Store.step (Store.open leftover 100)
      [.appendFile "inbox" "b" "json" 7 ⟨.ok, .ok, .err, 4, .ok, .err, .ok⟩,
        .replaceFile "settings" "c" "json" 3 sampleReplace,
        .replaceFile "settings" "c" "json" 9 { sampleReplace with sync := .err },
        .deleteFile "settings" "c" "json" ⟨.ok, .ok⟩]) :=
  (count_matches_files leftover 100 (by decide +kernel) _ (by
    refine ⟨?_, ?_, ?_, ?_, trivial⟩ <;> simp only [Orderly] <;> decide +kernel)).1

end DenEdge.Disk
