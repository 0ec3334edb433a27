import DenEdge.Base.Assoc
import DenEdge.Client.Edge

/-!
# What a move of a library carries, and how it is written

The two halves of a move of a library to another key, without the requests between them: what is carried of the
rows read (`movingOf`), and what a destination still has to be sent of it and does with each answer (`beginRound`,
`takeAnswer`).
-/

namespace DenEdge.Client

variable {D V P : Type} (core : Core D V)

/-! ## What is carried -/

inductive MoveRefusal where
  | updateRequired
  | unavailable
  | profiles

/-- What a move carries: the rows, and documents of a newer format as they are. -/
structure Moving (D V P : Type) where
  rows : List (Row D V)
  kept : List (String × D × P)
  head : ℕ
  generation : ℕ
  revokedGrants : List String

def DROPBOX_ROW : String := "assistant"
def GRANT_ROWS : List String := ["assistant-grants", "assistant-read", "assistant-play"]

/-- What of one value is carried, or why the move is refused. `set:recovery` stays behind, and `set:devices` keeps
only the moving device. -/
def carryEntry (device : String) : Cell D V P → Except MoveRefusal (Option (Row D V ⊕ String × D × P))
  | .profileDirectory _ | .invalidProfileDirectory | .kidTitleApprovals | .unreadable _ => .ok none
  | .unknown _ | .newerFraming => .error .updateRequired
  | .preV4 => .error .unavailable
  | .newer d plaintext => .ok (some (.inr (core.documentName d, d, plaintext)))
  | .row (.doc d) => .ok (some (.inl (.doc d)))
  | .row (.set s) =>
    if "tracker-event:".isPrefixOf s.name then .error .unavailable
    else if s.name = "recovery" then .ok none
    else if s.name = "devices" then
      .ok (some (.inl (.set { s with
        values := s.values.filter fun (name, _) => (device ++ ".").isPrefixOf name })))
    else .ok (some (.inl (.set s)))

/-- One row as a key reset copies it: no drop-box keys, and every grant revoked. -/
def resetAssistantRow (now : ℕ) : Row D V → Option (Row D V)
  | .doc d => some (.doc d)
  | .set s =>
    if s.name = DROPBOX_ROW then none
    else if GRANT_ROWS.contains s.name then
      some (.set { s with values := s.values.map fun (grant, setting) =>
        (grant, { setting with value := (core.assistantRevoke grant setting.value now).getD setting.value }) })
    else some (.set s)

def revokedBy : Row D V → List String
  | .doc _ => []
  | .set s => if GRANT_ROWS.contains s.name then s.values.map Prod.fst else []

/-- What a move of the rows read carries; refused where one of them is a profile directory. -/
def movingOf (device : String) (now : ℕ) (cells : List (Cell D V P)) (head generation : ℕ) :
    Except MoveRefusal (Moving D V P) :=
  if cells.any fun | .profileDirectory _ | .invalidProfileDirectory => true | _ => false then .error .profiles
  else do
    let carried ← cells.mapM (carryEntry core device)
    let rows := carried.filterMap (·.bind Sum.getLeft?)
    .ok {
      rows := rows.filterMap (resetAssistantRow core now)
      kept := carried.filterMap (·.bind Sum.getRight?)
      head := head
      generation := generation
      revokedGrants := (rows.flatMap revokedBy).dedup }

/-! ## How it is written -/

def ROUNDS : ℕ := 3
def REWRITE_BATCH_MAX : ℕ := 200
def REWRITE_BATCH_MAX_BYTES : ℕ := 2000000

/-- What a destination's log knows of its library. -/
structure Dest (D V : Type) where
  acknowledged : String → Option (ℕ × Row D V)
  generation : Option ℕ

def Dest.new : Dest D V := ⟨fun _ => none, none⟩

/-- A write of a move: its row, or none where it is a newer document as it is. -/
structure Planned (D V P : Type) where
  name : String
  row : Option (Row D V)
  base : ℕ
  cell : Cell D V P

def Planned.write (w : Planned D V P) : Write D V P := ⟨w.name, w.base, w.cell⟩

variable [DecidableEq D] [DecidableEq V] [DecidableEq P]

/-- The write of a row that is still to be moved; none where the destination's version stands. -/
def planRow (dest : Dest D V) (name : String) (ours : Row D V) : Option (Planned D V P) :=
  match dest.acknowledged name with
  | some (seq, held) =>
    if core.newer held then none
    else
      let row := core.merge held ours
      if held = row then none
      else if core.fits row then some ⟨name, some row, seq, .row row⟩ else none
  | none => if core.fits ours then some ⟨name, some ours, 0, .row ours⟩ else none

/-- The write of a newer document, never over a version already there. -/
def planKept (dest : Dest D V) (name : String) (d : D) (plaintext : P) : Option (Planned D V P) :=
  if (dest.acknowledged name).isSome then none else some ⟨name, none, 0, .newer d plaintext⟩

/-- Writes in batches den-edge takes. -/
def chunks {α : Type} (size : α → ℕ) : List α → List α → ℕ → List (List α)
  | [], chunk, _ => if chunk.isEmpty then [] else [chunk]
  | w :: ws, chunk, bytes =>
    if ¬ chunk.isEmpty ∧
      (REWRITE_BATCH_MAX ≤ chunk.length ∨ REWRITE_BATCH_MAX_BYTES - 16 < bytes + (size w + 1)) then
      chunk :: chunks size ws [w] (size w + 1)
    else chunks size ws (chunk ++ [w]) (bytes + (size w + 1))

/-- A copy under way: what is still to be moved, the rounds left after this one, and the batches of this one still
to be sent and answered. -/
structure Copy (D V P : Type) where
  rows : List (String × Row D V)
  kept : List (String × D × P)
  left : ℕ
  chunks : List (List (Planned D V P))

/-- The next round of a copy that has something to send, or its end: whether everything is there. -/
def beginRound (size : Planned D V P → ℕ) (dest : Dest D V) :
    ℕ → List (String × Row D V) → List (String × D × P) → Except Bool (Copy D V P)
  | 0, rows, kept => .error (rows.isEmpty && kept.isEmpty)
  | left + 1, rows, kept =>
    if rows.isEmpty && kept.isEmpty then .error true
    else
      let rows' := rows.filter fun e => (planRow core dest e.1 e.2 : Option (Planned D V P)).isSome
      let kept' := kept.filter fun e => (planKept dest e.1 e.2.1 e.2.2).isSome
      let writes := rows'.filterMap (fun e => planRow core dest e.1 e.2) ++
        kept'.filterMap (fun e => planKept dest e.1 e.2.1 e.2.2)
      match chunks size writes [] 0 with
      | [] => beginRound size dest left rows' kept'
      | batches => .ok ⟨rows', kept', left, batches⟩

/-- A stored value as the log reads it; none for one it does not read as a row. -/
def readRow (now : ℕ) : Cell D V P → Option (Row D V)
  | .row (.set s) => if "tracker-event:".isPrefixOf s.name then none else some (believe now (.set s))
  | .row (.doc d) => some (.doc d)
  | .newer d _ => some (.doc d)
  | _ => none

/-- What one write's answer makes of the destination and of what is to be moved; none where the copy fails. -/
def takeWrite (now : ℕ) (applied : List (String × ℕ)) (conflicts : List (String × Conflict D V P))
    (state : Dest D V × Copy D V P) (w : Planned D V P) : Option (Dest D V × Copy D V P) :=
  match Assoc.get applied w.name with
  | some seq =>
    let dest := match w.row with
      | some row => { state.1 with acknowledged := Function.update state.1.acknowledged w.name (some (seq, row)) }
      | none => state.1
    some (dest, { state.2 with rows := Assoc.erase state.2.rows w.name, kept := Assoc.erase state.2.kept w.name })
  | none =>
    match Assoc.get conflicts w.name with
    | some (.held entry) =>
      -- another version is here: the next round merges onto it
      (readRow now entry.value).map fun theirs =>
        ({ state.1 with acknowledged := Function.update state.1.acknowledged w.name (some (entry.seq, theirs)) },
          state.2)
    | _ => none

/-- What the answer to a batch makes of them. -/
def takeAnswer (now : ℕ) (generation : ℕ) (applied : List (String × ℕ))
    (conflicts : List (String × Conflict D V P))
    (dest : Dest D V) (copy : Copy D V P) : Option (Dest D V × Copy D V P) :=
  match copy.chunks with
  | [] => none
  | chunk :: rest =>
    (chunk.foldlM (takeWrite now applied conflicts) ({ dest with generation := some generation }, copy)).map
      fun (dest, copy) => (dest, { copy with chunks := rest })

end DenEdge.Client
