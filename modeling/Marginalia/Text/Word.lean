import Marginalia.Text.WordTable

/-!
The characters that names are made of. A line pattern distinguishes three classes: what continues a
word in any script, and the ASCII letters, digits and underscores with which a definition or a call
begins.
-/

namespace Marginalia.Text

/-- An ASCII letter. -/
def isLetter (c : Char) : Bool := ('a' ≤ c && c ≤ 'z') || ('A' ≤ c && c ≤ 'Z')

/-- An ASCII digit. -/
def isDigit (c : Char) : Bool := '0' ≤ c && c ≤ '9'

/-- A character that may open an identifier. -/
def isNameStart (c : Char) : Bool := isLetter c || c == '_'

/-- An ASCII character that may continue an identifier. -/
def isNameChar (c : Char) : Bool := isNameStart c || isDigit c

/-- A character that continues a word, in any script. -/
def isWord (c : Char) : Bool :=
  if c.toNat < 128 then isNameChar c else wordSet.mem c

/-- An ASCII character of an identifier is a word character. -/
theorem isWord_of_ascii {c : Char} (h : c.toNat < 128) : isWord c = isNameChar c := by
  simp [isWord, h]

end Marginalia.Text
