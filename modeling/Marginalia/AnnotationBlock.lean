import Marginalia.Annotation
import Marginalia.AnnotationBlock.Layout

/-!
Annotation blocks as lines. A block that is written holds the indented JSON text of an annotation
between a start and an end sentinel, each line a comment. A block that is read may have any format
that holds JSON.
-/

namespace Marginalia

open Text

/-- The lines of the block that says what an annotation says. -/
def blockLines (a : Annotation) (l : Language) (indent newline : List Char) : List Line :=
  let comment (body : List Char) : Line := indent ++ l.commentMark ++ ' ' :: body ++ newline
  comment startSentinel.toList
    :: (linesOf (Json.toPrettyText (Json.toJson a))).map comment
    ++ [comment endSentinel.toList]

/-- Why lines are no annotation block. -/
inductive BlockError where
  /-- The first line opens no block. -/
  | noSentinel
  /-- The first line is an end sentinel. -/
  | strayEnd
  /-- No line stands between the sentinels. -/
  | noPayload (format : BlockFormat)
  /-- The text between the sentinels is no annotation. -/
  | unreadable
  deriving DecidableEq, Repr

/-- What is wrong with the lines, where there is a wording for it. -/
def BlockError.reason? : BlockError → Option String
  | noSentinel => some "block does not open with a sentinel"
  | strayEnd => some "end sentinel without a block"
  | noPayload f => some s!"{f.title} block has no payload"
  | unreadable => none

/-- The text that a block holds: the bodies of its comment lines that are no sentinels, the first
line of the block left out. -/
def payload (l : Language) (lines : List Line) : List Line :=
  ((lines.drop 1).filter (LineKind.of l · == .comment none)).filterMap (commentBody? l)

/-- Reads the block that the first of these lines opens. -/
def readBlock (l : Language) (lines : List Line) : Except BlockError (BlockFormat × Annotation) :=
  match BlockFormat.recognize? (lines.map (LineKind.of l)) with
  | none => .error .noSentinel
  | some (.strayEnd, _) => .error .strayEnd
  | some (f, n) =>
    match payload l (lines.take n) with
    | [] => .error (.noPayload f)
    | bodies =>
      match (Json.readText? Annotation (String.ofList (joinLines bodies))) with
      | some a => .ok (f, a)
      | none => .error .unreadable

end Marginalia
