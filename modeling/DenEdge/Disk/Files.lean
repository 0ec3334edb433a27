import DenEdge.Base.Assoc
import DenEdge.Base.Run
import DenEdge.Store.Db

/-!
# The files of the store and their budget

One file per key, in a directory per kind of record, written beside its place and renamed over it. All writers
share one budget of bytes (`Quota`), in which room is reserved before a write and given back where the write
fails.

A call is a sequence of file operations, each of which the caller waits for. How each of them ends is an input of
the call: done, failed, or not waited for because the caller was dropped (`Fate`). An operation that is not waited
for may still take effect.

* `Quota.reserve`, `Quota.release`: the budget.
* `Store.replaceFile`, `Store.appendFile`, `Store.deleteFile`, `Store.sweepInbox`: the calls.
* `Store.step`: one of them, in a run.
-/

namespace DenEdge.Disk

/-! ## The budget -/

/-- The inbox holds at most this part of the cap: a quarter. -/
def INBOX_SHARE : ℕ := 4

structure Quota where
  used : ℕ
  inboxUsed : ℕ
  cap : ℕ

/-- Adds to a counter unless that passes the limit, or the counter's range. -/
def take (used bytes limit : ℕ) : Option ℕ :=
  if used + bytes < U64 ∧ (bytes = 0 ∨ used + bytes ≤ limit) then some (used + bytes) else none

/-- Takes off a counter, never below nothing. -/
def giveBack (used bytes : ℕ) : ℕ := used - bytes

/-- Room for bytes of a namespace, or none where the store, or the inbox's share of it, is full. -/
def Quota.reserve (q : Quota) (ns : String) (bytes : ℕ) : Option Quota :=
  if ns = "inbox" then
    match take q.inboxUsed bytes (q.cap / INBOX_SHARE) with
    | none => none
    | some inboxUsed =>
      -- what the inbox took is given back where the store is full, so nothing is kept of the two
      (take q.used bytes q.cap).map fun used => { q with used := used, inboxUsed := inboxUsed }
  else (take q.used bytes q.cap).map fun used => { q with used := used }

def Quota.release (q : Quota) (ns : String) (bytes : ℕ) : Quota :=
  { q with
    used := giveBack q.used bytes
    inboxUsed := if ns = "inbox" then giveBack q.inboxUsed bytes else q.inboxUsed }

/-! ## The files -/

/-- A namespace and a file name in it. -/
abbrev Path := String × String

/-- The files of the namespaces, each with its size. -/
structure Dir where
  entries : List (Path × ℕ)
  nodup : (entries.map Prod.fst).Nodup

variable (dir : Dir)

def Dir.set (path : Path) (size : ℕ) : Dir :=
  ⟨Assoc.set dir.entries path size, Assoc.keys_set _ _ _ dir.nodup⟩

def Dir.erase (path : Path) : Dir :=
  ⟨Assoc.erase dir.entries path, Assoc.keys_erase _ _ dir.nodup⟩

def Dir.get (path : Path) : Option ℕ := Assoc.get dir.entries path

/-- A file's size, or nothing where there is none. -/
def Dir.len (path : Path) : ℕ := (dir.get path).getD 0

/-- The size of all files. -/
def Dir.total : ℕ := Assoc.total (fun _ size => size) dir.entries

/-- The size of the files of the inbox. -/
def Dir.inbox : ℕ := Assoc.total (fun (path : Path) size => if path.1 = "inbox" then size else 0) dir.entries

/-- A file under another name, over what had it. -/
def Dir.rename (path path' : Path) : Dir := (dir.erase path).set path' (dir.len path)

structure Store where
  files : Dir
  quota : Quota

/-- The store as it is opened on a directory: everything in it is counted. -/
def Store.open (files : Dir) (cap : ℕ) : Store :=
  ⟨files, ⟨files.total % U64, files.inbox % U64, cap⟩⟩

def Store.release (d : Store) (ns : String) (bytes : ℕ) : Store := { d with quota := d.quota.release ns bytes }

/-! ## The calls -/

/-- How a file operation ends for its caller. -/
inductive Fate where
  | ok
  | err
  /-- The caller was dropped while it waited; whether the operation took effect. -/
  | dropped (took : Bool)
  deriving DecidableEq

/-- How a call ends. -/
inductive Ended where
  | ok
  | error
  | dropped

/-- The file a key's record is in; `name` is the hash of the key. -/
def path (ns name ext : String) : Path := (ns, name ++ "." ++ ext)

/-- The temporary file a record is written to first. -/
def tmpPath (ns name ext : String) : Path := (ns, name ++ "." ++ ext ++ ".tmp")

/-- How the operations of a replacement end; `written` is what is on disk of a write that stops part-way. -/
structure ReplaceIo where
  stat : Fate
  create : Fate
  write : Fate
  written : ℕ
  sync : Fate
  rename : Fate
  remove : Fate

/-- A value written to the temporary file, synced, and renamed into place. -/
def Dir.writeTmp (io : ReplaceIo) (tmp path : Path) (new : ℕ) (files : Dir) : Fate × Dir :=
  match io.create with
  | .err => (.err, files)
  | .dropped took => (.dropped took, if took then files.set tmp 0 else files)
  | .ok =>
    match io.write with
    | .err => (.err, files.set tmp (min io.written new))
    | .dropped took => (.dropped took, files.set tmp (min io.written new))
    | .ok =>
      match io.sync with
      | .err => (.err, files.set tmp new)
      | .dropped took => (.dropped took, files.set tmp new)
      | .ok =>
        match io.rename with
        | .err => (.err, files.set tmp new)
        | .dropped took =>
          (.dropped took, if took then (files.set tmp new).rename tmp path else files.set tmp new)
        | .ok => (.ok, (files.set tmp new).rename tmp path)

/-- A replacement once the old size is asked for: room is taken for what the file grows by, and given back for
what it shrank by, or where it was not replaced. -/
def Store.replaceOver (ns name ext : String) (old new : ℕ) (io : ReplaceIo) (d : Store) : Ended × Store :=
  match d.quota.reserve ns (new - old) with
  | none => (.error, d)
  | some quota =>
    match d.files.writeTmp io (tmpPath ns name ext) (path ns name ext) new with
    | (.dropped _, files) => (.dropped, ⟨files, quota⟩)
    | (.ok, files) => (.ok, Store.release ⟨files, quota⟩ ns (old - new))
    | (.err, files) =>
      match io.remove with
      | .dropped took => (.dropped, ⟨if took then files.erase (tmpPath ns name ext) else files, quota⟩)
      | .err => (.error, Store.release ⟨files, quota⟩ ns (new - old))
      | .ok => (.error, Store.release ⟨files.erase (tmpPath ns name ext), quota⟩ ns (new - old))

def Store.replaceFile (ns name ext : String) (new : ℕ) (io : ReplaceIo) (d : Store) : Ended × Store :=
  match io.stat with
  | .dropped _ => (.dropped, d)
  | .ok => d.replaceOver ns name ext (d.files.len (path ns name ext)) new io
  -- a file that cannot be asked for its size counts as none
  | .err => d.replaceOver ns name ext 0 new io

/-- How the operations of an append end. -/
structure AppendIo where
  opened : Fate
  stat : Fate
  write : Fate
  written : ℕ
  sync : Fate
  truncate : Fate
  restat : Fate

/-- An append that failed is cut back; what cannot be cut back stays counted. -/
def Store.cutBack (ns : String) (file : Path) (before len : ℕ) (io : AppendIo) (d : Store) : Ended × Store :=
  match io.truncate with
  | .dropped took => (.dropped, if took then { d with files := d.files.set file before } else d)
  | .ok =>
    (.error, Store.release { d with files := d.files.set file before } ns (before + len - before))
  | .err =>
    match io.restat with
    | .dropped _ => (.dropped, d)
    | .ok => (.error, d.release ns (before + len - d.files.len file))
    | .err => (.error, d.release ns (before + len - (before + len)))

def Store.appendFile (ns name ext : String) (len : ℕ) (io : AppendIo) (d : Store) : Ended × Store :=
  let file := path ns name ext
  match d.quota.reserve ns len with
  | none => (.error, d)
  | some quota =>
    -- opening makes the file
    let created : Dir := d.files.set file (d.files.len file)
    match io.opened with
    | .err => (.error, Store.release ⟨d.files, quota⟩ ns len)
    | .dropped took => (.dropped, ⟨if took then created else d.files, quota⟩)
    | .ok =>
      let before := created.len file
      match io.stat with
      | .err => (.error, Store.release ⟨created, quota⟩ ns len)
      | .dropped _ => (.dropped, ⟨created, quota⟩)
      | .ok =>
        match io.write with
        | .err => Store.cutBack ns file before len io ⟨created.set file (before + min io.written len), quota⟩
        | .dropped _ => (.dropped, ⟨created.set file (before + min io.written len), quota⟩)
        | .ok =>
          match io.sync with
          | .err => Store.cutBack ns file before len io ⟨created.set file (before + len), quota⟩
          | .dropped _ => (.dropped, ⟨created.set file (before + len), quota⟩)
          | .ok => (.ok, ⟨created.set file (before + len), quota⟩)

structure DeleteIo where
  stat : Fate
  remove : Fate

/-- A removal once the size is asked for. A file that is not there is as good as removed. -/
def Store.deleteOver (ns : String) (file : Path) (old : ℕ) (io : DeleteIo) (d : Store) : Ended × Store :=
  match io.remove with
  | .err => (.error, d)
  | .dropped took => (.dropped, if took then { d with files := d.files.erase file } else d)
  | .ok => (.ok, Store.release { d with files := d.files.erase file } ns old)

def Store.deleteFile (ns name ext : String) (io : DeleteIo) (d : Store) : Ended × Store :=
  match io.stat with
  | .dropped _ => (.dropped, d)
  | .ok => d.deleteOver ns (path ns name ext) (d.files.len (path ns name ext)) io
  | .err => d.deleteOver ns (path ns name ext) 0 io

/-- How the operations of the sweep of one inbox file end, and whether it has expired. -/
structure SweepIo where
  opened : Fate
  stat : Fate
  read : Fate
  expired : Bool
  remove : Fate

/-- One inbox file is removed if it has expired. -/
def Store.sweepInbox (name : String) (io : SweepIo) (d : Store) : Ended × Store :=
  let file : Path := ("inbox", name)
  match io.opened with
  | .dropped _ => (.dropped, d)
  | .err => (.error, d)
  | .ok =>
    match d.files.get file with
    | none => (.ok, d)
    | some size =>
      match io.stat, io.read with
      | .dropped _, _ => (.dropped, d)
      | .err, _ => (.error, d)
      | .ok, .dropped _ => (.dropped, d)
      | .ok, .err => (.error, d)
      | .ok, .ok =>
        if io.expired then
          match io.remove with
          | .err => (.error, d)
          | .dropped took => (.dropped, if took then { d with files := d.files.erase file } else d)
          | .ok => (.ok, Store.release { d with files := d.files.erase file } "inbox" size)
        else (.ok, d)

inductive Call where
  | replaceFile (ns name ext : String) (size : ℕ) (io : ReplaceIo)
  | appendFile (ns name ext : String) (size : ℕ) (io : AppendIo)
  | deleteFile (ns name ext : String) (io : DeleteIo)
  | sweepInbox (name : String) (io : SweepIo)

def Store.call (d : Store) : Call → Ended × Store
  | .replaceFile ns name ext size io => d.replaceFile ns name ext size io
  | .appendFile ns name ext size io => d.appendFile ns name ext size io
  | .deleteFile ns name ext io => d.deleteFile ns name ext io
  | .sweepInbox name io => d.sweepInbox name io

def Store.step (d : Store) (call : Call) : Store := (d.call call).2

end DenEdge.Disk
