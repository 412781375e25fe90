import Marginalia.CodeUnit
import Marginalia.Text.Case

/-!
What can be said of a unit without asking anyone. A unit counts as reusable if its body shows no
sign of an effect and it takes an input; its annotation is made of its own texts.
-/

namespace Marginalia

open Text

/-- The first `limit` characters of a text. -/
def excerpt (limit : Nat) (s : String) : String := String.ofList (s.toList.take limit)

namespace LocalRules

/-- Pieces of text that tell of an effect. -/
def effectSigns : List String := [
  "open(", "write", "delete", "drop", "insert", "update", "request.", "http", "socket", "global ",
  "nonlocal"]

/-- Parameters that stand for the object itself. -/
def receivers : List String := ["self", "cls", "this", "&self", "&mut self", "mut self"]

/-- The parameters name something other than the object itself. -/
def hasInputs (params : String) : Bool :=
  ((splitAtEach ',' params.toList).map fun p => String.ofList (trim p)).any fun p =>
    p != "" && !receivers.contains p

/-- The body, in any case of letters, shows a sign of an effect. -/
def hasEffects (body : String) : Bool :=
  let text := lower body.toList
  effectSigns.any fun sign => occursIn sign.toList text

/-- The verdict on a unit in the name of `source`. -/
def verdict (u : CodeUnit) (source : Source) : Verdict :=
  let reusable := !hasEffects u.body && hasInputs u.params
  let reason :=
    if reusable then "Appears stateless with parameters"
    else "Has side effects or no parameters"
  .of reusable reason .half source

/-! ### Words of a name -/

/-- A character that stands between the words of a name and belongs to none. -/
def dividesWords (c : Char) : Bool := c == '_' || c == '$' || isDigit c

/-- The pieces of a name behind an unfinished piece, given in reverse: the name is cut at every
divider and before an upper-case character that follows a lower-case one. -/
def namePieces (piece : List Char) (afterLower : Bool) : List Char → List (List Char)
  | [] => [piece.reverse]
  | c :: rest =>
    if dividesWords c then piece.reverse :: namePieces [] false rest
    else if isUpper c && afterLower then piece.reverse :: namePieces [c] (isLower c) rest
    else namePieces (c :: piece) (isLower c) rest

/-- The words of a name in lower case, each once. -/
def nameWords (name : String) : List String :=
  (((namePieces [] false name.toList).filter (!·.isEmpty)).map fun piece =>
    String.ofList (piece.flatMap lowerChar)).eraseDups

/-- The annotation that a unit's own texts make up. -/
def annotation (u : CodeUnit) : Annotation where
  methodName := u.name
  className := u.scope.getD ""
  intent := s!"Auto-generated intent for {u.name}."
  description := s!"Auto-generated description for {u.name}."
  keywords := nameWords u.name
  parameters := u.signature
  code := excerpt 300 u.body

end LocalRules

end Marginalia
