import Marginalia.AnnotationBlock.Layout

/-!
Taking the blocks out of a text. A text falls into pieces, single lines that stay and whole blocks
that go; put together the pieces are the text. What stays is again a sequence of lines, in which a
line is found at its old place less the removed lines above it.
-/

namespace Marginalia

open Text

/-- A part of a text: a line that stays, or a block. -/
inductive Piece where
  | line (line : Line)
  | block (format : BlockFormat) (lines : List Line)
  deriving DecidableEq, Repr

/-- The lines of a piece. -/
def Piece.lines : Piece → List Line
  | line l => [l]
  | block _ ls => ls

/-- The pieces of the lines whose kinds are given, the first `covered` lines passed over as part of
a block that has been cut already. -/
def piecesFrom (covered : Nat) : List Line → List LineKind → List Piece
  | [], _ => []
  | line :: rest, kinds =>
    match covered with
    | covered + 1 => piecesFrom covered rest kinds.tail
    | 0 =>
      match BlockFormat.recognize? kinds with
      | some (f, n) => .block f ((line :: rest).take n) :: piecesFrom (n - 1) rest kinds.tail
      | none => .line line :: piecesFrom 0 rest kinds.tail

/-- The pieces of a sequence of lines. -/
def pieces (l : Language) (lines : List Line) : List Piece :=
  piecesFrom 0 lines (lines.map (LineKind.of l))

/-- A block that has been taken out: the number of its first line in the text, and its length. -/
structure RemovedBlock where
  format : BlockFormat
  start : Nat
  length : Nat
  deriving DecidableEq, Repr

open Json in
instance : Writable RemovedBlock :=
  ⟨fun b => ofFields [
    ("format", toJson b.format), ("start", toJson b.start), ("len", toJson b.length)]⟩

open Json in
instance : Readable RemovedBlock :=
  ⟨fun v => do
    let r ← record? ["format", "start", "len"] v
    return ⟨← r.field "format", ← r.field "start", ← r.field "len"⟩⟩

/-- The lines that stay. -/
def keptLines (ps : List Piece) : List Line :=
  ps.filterMap fun | .line l => some l | .block .. => none

/-- The blocks of pieces of which the first one starts with line number `start`. -/
def removedFrom (start : Nat) : List Piece → List RemovedBlock
  | [] => []
  | .line _ :: rest => removedFrom (start + 1) rest
  | .block f ls :: rest => ⟨f, start, ls.length⟩ :: removedFrom (start + ls.length) rest

/-- A text without its blocks. -/
structure Stripped where
  /-- The lines that stay, with their terminators. -/
  lines : List Line
  /-- The blocks that were taken out, in their order. -/
  removed : List RemovedBlock
  deriving DecidableEq, Repr

/-- Takes the blocks out of a text. -/
def strip (l : Language) (text : String) : Stripped :=
  let ps := pieces l (splitLines text.toList)
  ⟨keptLines ps, removedFrom 0 ps⟩

namespace Stripped

/-- The place of a line of the text among the lines that stay. -/
def shifted (s : Stripped) (line : Nat) : Nat :=
  let above := (s.removed.takeWhile (·.start < line)).map fun b => min b.length (line - b.start)
  line - above.foldr (· + ·) 0

/-- How many lines were taken out. -/
def removedLines (s : Stripped) : Nat := s.removed.foldr (·.length + ·) 0

/-- The text that stays. -/
def text (s : Stripped) : String := String.ofList s.lines.flatten

end Stripped

/-- The pieces of a text are its lines. -/
theorem flatMap_lines_piecesFrom (covered : Nat) (lines : List Line) (kinds : List LineKind) :
    (piecesFrom covered lines kinds).flatMap Piece.lines = lines.drop covered := by
  induction lines generalizing covered kinds with
  | nil => simp [piecesFrom]
  | cons line rest ih =>
    unfold piecesFrom
    split
    · exact ih _ _
    · split
      · next f n h =>
        rw [List.flatMap_cons, ih, Piece.lines]
        obtain ⟨m, rfl⟩ := Nat.exists_eq_succ_of_ne_zero
          (Nat.pos_iff_ne_zero.1 (BlockFormat.recognize?_pos h))
        simp
      · rw [List.flatMap_cons, ih]
        rfl

end Marginalia
