import Marginalia.Text.CodePoints

/-!
White space. One class serves the whole library: the twenty-five characters that Unicode calls
white space. The module cuts text at them and says when nothing else is left.
-/

namespace Marginalia.Text

/-- The white space of Unicode. -/
def blankSet : CodePointSet := ⟨[
  9, 14, 32, 33, 133, 134, 160, 161, 5760, 5761, 8192, 8203, 8232, 8234, 8239, 8240, 8287, 8288,
  12288, 12289]⟩

/-- White space. -/
def isBlank (c : Char) : Bool := blankSet.mem c

/-- Nothing but white space. -/
def allBlank (text : List Char) : Bool := text.all isBlank

/-- The text without its longest tail of characters that satisfy `p`. -/
def dropTrailing (p : Char → Bool) (text : List Char) : List Char :=
  (text.reverse.dropWhile p).reverse

/-- The text from its first visible character on. -/
def trimStart (text : List Char) : List Char := text.dropWhile isBlank

/-- The text up to its last visible character. -/
def trimEnd (text : List Char) : List Char := dropTrailing isBlank text

/-- The text between its first and its last visible character. -/
def trim (text : List Char) : List Char := trimEnd (trimStart text)

/-- A string without the white space around it. -/
def trimmed (s : String) : String := String.ofList (trim s.toList)

/-- A string of white space alone. -/
def isBlankString (s : String) : Bool := allBlank s.toList

/-- Cutting a tail leaves a front part of the text. -/
theorem dropTrailing_append (p : Char → Bool) (text : List Char) :
    dropTrailing p text ++ (text.reverse.takeWhile p).reverse = text := by
  rw [dropTrailing, ← List.reverse_append, List.takeWhile_append_dropWhile, List.reverse_reverse]

/-- Cutting the front leaves a tail of the text. -/
theorem takeWhile_append_trimStart (text : List Char) :
    text.takeWhile isBlank ++ trimStart text = text :=
  List.takeWhile_append_dropWhile

end Marginalia.Text
