/-!
Text as lines. A line ends behind its line feed, so the pieces of a text keep their terminators and
put together give the text again. The content of a line is what remains without its terminator.
-/

namespace Marginalia.Text

/-- A physical line. -/
abbrev Line := List Char

/-- Puts a character in front of the first line, if the line has not been closed by it. -/
def prependChar (c : Char) (lines : List Line) : List Line :=
  if c = '\n' then [c] :: lines
  else match lines with
    | [] => [[c]]
    | line :: rest => (c :: line) :: rest

/-- The lines of a text, each with its terminator. -/
def splitLines (text : List Char) : List Line := text.foldr prependChar []

/-- A line without its terminator, a line feed or a carriage return and a line feed. -/
def content (line : Line) : Line :=
  match line.reverse with
  | '\n' :: '\r' :: rest => rest.reverse
  | '\n' :: rest => rest.reverse
  | _ => line

/-- The lines of a text without their terminators. -/
def contents (text : List Char) : List Line := (splitLines text).map content

/-- The lines of a string without their terminators. -/
def linesOf (s : String) : List Line := contents s.toList

/-- The text that lines with line feeds between them make up. -/
def joinLines (lines : List Line) : List Char := List.intercalate ['\n'] lines

theorem flatten_prependChar (c : Char) (lines : List Line) :
    (prependChar c lines).flatten = c :: lines.flatten := by
  unfold prependChar
  split
  · simp
  · split <;> simp

/-- No character is lost or moved by cutting a text into lines. -/
theorem flatten_splitLines (text : List Char) : (splitLines text).flatten = text := by
  induction text with
  | nil => rfl
  | cons c rest ih => rw [splitLines, List.foldr_cons, flatten_prependChar, ← splitLines, ih]

end Marginalia.Text
