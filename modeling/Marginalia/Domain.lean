import Marginalia.Domain.Direction
import Marginalia.Domain.FoldTable
import Marginalia.Domain.Punycode
import Marginalia.Text.Case

/-!
Names of domains. A name consists of labels with dots between them. Letters of either case and other
variants of a character mean the same, so a name has one normal form; in that form it is written in
ASCII, a label with other characters by a code behind a mark.
-/

namespace Marginalia.Domain

open Text

/-- The characters that a character of a name stands for; none if no name may have it. -/
def fold? (c : Char) : Option (List Char) :=
  if c.toNat < 128 then some [c.toLower]
  else if refusedSet.mem c then none
  else if ignoredSet.mem c then some []
  else some ((foldTable.form? c).getD (lowerChar c))

/-- A character that stands for itself. -/
def isPlain (c : Char) : Bool := fold? c == some [c]

/-- An ASCII character with a meaning of its own in an address. -/
def isReserved (c : Char) : Bool :=
  c.toNat ≤ 32 || c.toNat = 127
    || ['%', '#', '/', ':', '<', '>', '?', '@', '[', '\\', ']', '^', '|'].contains c

/-- All characters are ASCII. -/
def isAscii (text : List Char) : Bool := text.all (·.toNat < 128)

/-- What stands in front of a code. -/
def codeMark : List Char := ['x', 'n', '-', '-']

/-- The characters of a label, which may be written in ASCII. The code must be that of a label in
normal form. -/
def charactersOf? (label : List Char) : Option (List Char) :=
  match dropFront? codeMark label with
  | none => some label
  | some code =>
    if !isAscii code || code.getLast?.all (· == '-') || code.length > 2000 then none
    else (decode? code).filter fun text => text.all isPlain && canonical text == text

/-- A label that starts with a letter or the like, and in which all joiners have an effect. -/
def isSound (label : List Char) : Bool :=
  isAscii label
    || (label.head?.all (fun c => !nonspacingSet.mem c && !spacingSet.mem c)
      && joinersFit [] label && label.length ≤ 1000)

/-- A label in ASCII, where `characters` are those it stands for. -/
def asciiLabel (label characters : List Char) : List Char :=
  if isAscii label then label else codeMark ++ encode characters

/-- A name in ASCII, in normal form. -/
def toAscii? (name : List Char) : Option (List Char) := do
  let folded ← name.mapM fold?
  let labels := splitAtEach '.' (canonical folded.flatten)
  let texts ← labels.mapM charactersOf?
  let directed := texts.any (·.any isFromRight)
  if texts.all fun text =>
      isSound text && !text.any isReserved
        && (!directed || hasOneDirection text) then
    some (List.intercalate ['.'] (List.zipWith asciiLabel labels texts))
  else none

end Marginalia.Domain
