import DenEdge.Base.Assoc
import DenEdge.Base.Program

/-!
# Programs over files

A store of whole files: a file is read, put or deleted in one operation, which fails without effect, or the
process dies at it, its effect done or not. Programs over these operations are `Program`s, and what they leave is
said with `Keeps`.

* `Storage.Op`, `Storage.Fate`: the operations and how they end.
* `Storage.act`: an operation that ends in a given way.
* `Storage.Ends`: how an operation may end, where some are known to succeed or to fail.
* `keeps_get`, `keeps_put`, `keeps_delete`, `keeps_sync`: one rule per operation.
* `Storage.run`: a program run alone; `run_ends`, `run_dies`: what `Keeps` says of it.
* `Storage.scripted`: the way of ending in which the operations end in turn as a list says; `run_keeps` for it.
* `Storage.failing`: the way of ending in which a given list of operations fails and every other one succeeds.
-/

namespace Storage

/-- Why an operation failed: the store is at its cap, or anything else. -/
inductive Failure where
  | full
  | other
  deriving DecidableEq

inductive Op (K V : Type) where
  | get (k : K)
  | put (k : K) (v : V)
  | delete (k : K)
  /-- Make what was put and deleted survive a loss of power. -/
  | sync

variable {K V α : Type}

abbrev Op.Answer : Op K V → Type
  | .get _ => Except Failure (Option V)
  | .put _ _ => Except Failure Unit
  | .delete _ => Except Failure Unit
  | .sync => Except Failure Unit

/-- How an operation ends for its caller. -/
inductive Fate where
  | ok
  | err (e : Failure)
  /-- The process dies at it, its effect done or not. -/
  | dies (took : Bool)
  deriving DecidableEq

abbrev Filing (K V : Type) (α : Type) : Type := Program (Op K V) Op.Answer α

variable [DecidableEq K]

/-- What an operation does to the files. -/
def effect (files : List (K × V)) : Op K V → List (K × V)
  | .get _ => files
  | .put k v => Assoc.set files k v
  | .delete k => Assoc.erase files k
  | .sync => files

/-- What an operation that succeeds answers. -/
def found (files : List (K × V)) : (c : Op K V) → c.Answer
  | .get k => .ok (Assoc.get files k)
  | .put _ _ => .ok ()
  | .delete _ => .ok ()
  | .sync => .ok ()

omit [DecidableEq K] in
/-- What an operation that fails answers. -/
def failed (e : Failure) : (c : Op K V) → c.Answer
  | .get _ => .error e
  | .put _ _ => .error e
  | .delete _ => .error e
  | .sync => .error e

def act (files : List (K × V)) (c : Op K V) : Fate → List (K × V) × Option c.Answer
  | .ok => (effect files c, some (found files c))
  | .err e => (files, some (failed e c))
  | .dies took => (if took then effect files c else files, none)

/-! ## How operations may end -/

/-- Which operations may succeed, and which may fail. -/
structure May (K V : Type) where
  succeed : Op K V → Prop
  fail : Op K V → Prop

/-- Any operation may succeed or fail. -/
def May.any : May K V := ⟨fun _ => True, fun _ => True⟩

/-- What an operation may answer and leave. -/
def Ends (may : May K V) (files : List (K × V)) (c : Op K V) (a : c.Answer) (files' : List (K × V)) : Prop :=
  (may.succeed c ∧ a = found files c ∧ files' = effect files c) ∨
    (may.fail c ∧ ∃ e, a = failed e c ∧ files' = files)

variable {may : May K V} {ok : List (K × V) → Op K V → Prop} {I : List (K × V) → Prop}
  {Q : α → List (K × V) → Prop} {files : List (K × V)}

variable {k : K} {next : Except Failure Unit → Filing K V α} {p : Filing K V α}

theorem keeps_get {next : Except Failure (Option V) → Filing K V α} (hok : ok files (.get k)) (hI : I files)
    (hfound : may.succeed (.get k) → (next (.ok (Assoc.get files k))).Keeps (Ends may) ok I Q files)
    (hfailed : may.fail (.get k) → ∀ e, (next (.error e)).Keeps (Ends may) ok I Q files) :
    Program.Keeps (Ends may) ok I Q (.call (.get k) next) files := by
  refine ⟨hok, ?_⟩
  rintro a files' (⟨hmay, rfl, rfl⟩ | ⟨hmay, e, rfl, rfl⟩)
  · exact ⟨hI, hfound hmay⟩
  · exact ⟨hI, hfailed hmay e⟩

theorem keeps_put {v : V} (hok : ok files (.put k v)) (hI : I files)
    (hput : may.succeed (.put k v) → I (Assoc.set files k v) ∧
      (next (.ok ())).Keeps (Ends may) ok I Q (Assoc.set files k v))
    (hfailed : may.fail (.put k v) → ∀ e, (next (.error e)).Keeps (Ends may) ok I Q files) :
    Program.Keeps (Ends may) ok I Q (.call (.put k v) next) files := by
  refine ⟨hok, ?_⟩
  rintro a files' (⟨hmay, rfl, rfl⟩ | ⟨hmay, e, rfl, rfl⟩)
  · exact hput hmay
  · exact ⟨hI, hfailed hmay e⟩

theorem keeps_delete (hok : ok files (.delete k)) (hI : I files)
    (hdeleted : may.succeed (.delete k) → I (Assoc.erase files k) ∧
      (next (.ok ())).Keeps (Ends may) ok I Q (Assoc.erase files k))
    (hfailed : may.fail (.delete k) → ∀ e, (next (.error e)).Keeps (Ends may) ok I Q files) :
    Program.Keeps (Ends may) ok I Q (.call (.delete k) next) files := by
  refine ⟨hok, ?_⟩
  rintro a files' (⟨hmay, rfl, rfl⟩ | ⟨hmay, e, rfl, rfl⟩)
  · exact hdeleted hmay
  · exact ⟨hI, hfailed hmay e⟩

theorem keeps_sync (hok : ok files .sync) (hI : I files)
    (hsynced : may.succeed .sync → (next (.ok ())).Keeps (Ends may) ok I Q files)
    (hfailed : may.fail .sync → ∀ e, (next (.error e)).Keeps (Ends may) ok I Q files) :
    Program.Keeps (Ends may) ok I Q (.call .sync next) files := by
  refine ⟨hok, ?_⟩
  rintro a files' (⟨hmay, rfl, rfl⟩ | ⟨hmay, e, rfl, rfl⟩)
  · exact ⟨hI, hsynced hmay⟩
  · exact ⟨hI, hfailed hmay e⟩

/-! ## A program run alone -/

/-- What a program leaves and ends with, its process running alone; nothing where the process died. -/
def run (fate : ℕ → Op K V → Fate) (p : Filing K V α) (files : List (K × V)) : List (K × V) × Option α :=
  p.run act fate 0 files

/-- The ways of ending that are given are among those that may be. -/
def Within (fate : ℕ → Op K V → Fate) (may : May K V) : Prop :=
  ∀ n c, match fate n c with
    | .ok => may.succeed c
    | .err _ => may.fail c
    | .dies _ => may.succeed c

omit [DecidableEq K] in
theorem within_any (fate : ℕ → Op K V → Fate) : Within fate May.any := by
  intro n c
  cases fate n c <;> trivial

variable {fate : ℕ → Op K V → Fate}

variable {files' : List (K × V)}

section

variable (hwithin : Within fate may)
include hwithin

theorem act_ends {n : ℕ} {c : Op K V} {a : c.Answer}
    (h : act files c (fate n c) = (files', some a)) : Ends may files c a files' := by
  have hmay := hwithin n c
  cases hfate : fate n c with
  | ok =>
    rw [hfate] at h hmay
    simp only [act, Prod.mk.injEq, Option.some.injEq] at h
    exact .inl ⟨hmay, h.2.symm, h.1.symm⟩
  | err e =>
    rw [hfate] at h hmay
    simp only [act, Prod.mk.injEq, Option.some.injEq] at h
    exact .inr ⟨hmay, e, h.2.symm, h.1.symm⟩
  | dies =>
    rw [hfate] at h
    simp [act] at h

theorem act_dies {n : ℕ} {c : Op K V} (h : act files c (fate n c) = (files', none)) :
    files' = files ∨ ∃ a, Ends may files c a files' := by
  have hmay := hwithin n c
  cases hfate : fate n c with
  | ok | err e => rw [hfate] at h; simp [act] at h
  | dies took =>
    rw [hfate] at h hmay
    simp only [act, Prod.mk.injEq, and_true] at h
    cases took with
    | false => exact .inl h.symm
    | true => exact .inr ⟨found files c, .inl ⟨hmay, rfl, h.symm⟩⟩

/-- A run that ends, ends as wanted. -/
theorem run_ends (h : p.Keeps (Ends may) ok I Q files) {a : α}
    (hrun : run fate p files = (files', some a)) : Q a files' := by
  refine h.run ?_ hrun
  exact fun _ _ _ _ _ hact => act_ends hwithin hact

/-- Where the process dies on the way, the invariant holds. -/
theorem run_dies (h : p.Keeps (Ends may) ok I Q files) (hI : I files)
    (hrun : run fate p files = (files', none)) : I files' := by
  refine h.died ?_ ?_ hI hrun
  · exact fun _ _ _ _ _ hact => act_ends hwithin hact
  · exact fun _ _ _ _ hact => act_dies hwithin hact

end

/-- The operations end in turn as the list says; those past its end succeed. -/
def scripted (fates : List Fate) (n : ℕ) (_ : Op K V) : Fate := fates.getD n .ok

/-- Every call is allowed. -/
abbrev anyCall : List (K × V) → Op K V → Prop := fun _ _ => True

/-- Whatever is answered, the invariant holds after every operation and at the end. -/
abbrev Preserves (may : May K V) (I : List (K × V) → Prop) (p : Filing K V α) (files : List (K × V)) : Prop :=
  p.Keeps (Ends may) anyCall I (fun _ => I) files

/-- What every way a program may end keeps is kept by a run of it, also one that dies. -/
theorem run_keeps (fates : List Fate) (hI : I files)
    (h : Preserves May.any I p files) : I (run (scripted fates) p files).1 := by
  cases hrun : run (scripted fates) p files with
  | mk _ a =>
    cases a with
    | none => exact run_dies (within_any _) h hI hrun
    | some a => exact run_ends (within_any _) h hrun

/-! ## A list of operations that fail -/

/-- An operation without the value it puts. -/
inductive Touch (K : Type) where
  | get (k : K)
  | put (k : K)
  | delete (k : K)
  | sync
  deriving DecidableEq

def Op.touch : Op K V → Touch K
  | .get k => .get k
  | .put k _ => .put k
  | .delete k => .delete k
  | .sync => .sync

variable (fails : List (Touch K × Failure))

/-- The operations of the list fail, every other one succeeds. -/
def failing (_ : ℕ) (c : Op K V) : Fate :=
  match Assoc.get fails c.touch with
  | some e => .err e
  | none => .ok

def May.failing : May K V where
  succeed c := Assoc.get fails c.touch = none
  fail c := Assoc.get fails c.touch ≠ none

theorem within_failing :
    Within (failing (V := V) fails) (May.failing fails) := by
  intro n c
  unfold failing
  cases h : Assoc.get fails c.touch with
  | none => exact h
  | some e =>
    have hsome : Assoc.get fails c.touch ≠ none := by simp [h]
    exact hsome

theorem act_failing (n : ℕ) (files : List (K × V)) (c : Op K V) :
    ∃ files' a, act files c (failing fails n c) = (files', some a) := by
  unfold failing
  cases Assoc.get fails c.touch <;> exact ⟨_, _, rfl⟩

/-- Where operations only fail and none dies, every program ends. -/
theorem run_failing (p : Filing K V α) (files : List (K × V)) :
    ∃ files' a, run (failing fails) p files = (files', some a) := by
  unfold run
  have hrun : ∀ n, ∃ files' a, p.run act (failing fails) n files = (files', some a) := by
    induction p generalizing files with
    | done a => exact fun n => ⟨files, a, rfl⟩
    | call c next ih =>
      intro n
      obtain ⟨files₁, b, hact⟩ := act_failing fails n files c
      obtain ⟨files', a, hnext⟩ := ih b files₁ (n + 1)
      refine ⟨files', a, ?_⟩
      rw [Program.run, hact]
      exact hnext
  exact hrun 0

end Storage
