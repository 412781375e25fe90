import Marginalia.Header.Words
import Marginalia.Text.Word

/-!
Calls in a body. A call is a name with a parenthesis behind it, white space between the two allowed.
The names are the maximal runs of ASCII letters, digits and underscores without their leading
digits.
-/

namespace Marginalia

open Text

/-- A parenthesis follows, perhaps behind white space. -/
def opensParenthesis (text : List Char) : Bool := (trimStart text).head? == some '('

/-- The name that a run of characters, given in reverse, ends in. -/
def nameOfRun (run : List Char) : List Char := run.reverse.dropWhile isDigit

/-- The called names of a text behind an unfinished run, both the run and the names found so far
given in reverse. -/
def calledFrom (run : List Char) (found : List String) : List Char → List String
  | [] => found.reverse
  | c :: rest =>
    if isNameChar c then calledFrom (c :: run) found rest
    else if !(nameOfRun run).isEmpty && opensParenthesis (c :: rest) then
      calledFrom [] (String.ofList (nameOfRun run) :: found) rest
    else calledFrom [] found rest

/-- The called names of a text, one for each call. -/
def calledNames (text : List Char) : List String := calledFrom [] [] text

/-- The name counts as a call of the unit called `own`: it is another name, no reserved word and,
if private names are skipped, has no underscore in front. -/
def countsAsCall (own : String) (l : Language) (skipPrivate : Bool) (name : String) : Bool :=
  name != own && !l.reserves name && !(skipPrivate && name.toList.head? == some '_')

/-- The names that a body calls, each once, in the order of their first call. -/
def callsOfBody (body own : String) (l : Language) (skipPrivate : Bool) : List String :=
  ((calledNames body.toList).filter (countsAsCall own l skipPrivate)).eraseDups

end Marginalia
