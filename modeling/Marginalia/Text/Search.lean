/-!
Looking for a piece of text in another: where it stands in front, at the end or anywhere, and what
lies between its occurrences.
-/

namespace Marginalia.Text

/-- The needle occurs somewhere in the text. -/
def occursIn (needle : List Char) : List Char → Bool
  | [] => needle.isEmpty
  | c :: rest => needle.isPrefixOf (c :: rest) || occursIn needle rest

/-- The text ends with `tail`. -/
def endsWith (text tail : List Char) : Bool := tail.reverse.isPrefixOf text.reverse

/-- The text behind `front`, if it starts with `front`. -/
def dropFront? : (front text : List Char) → Option (List Char)
  | [], text => some text
  | _ :: _, [] => none
  | f :: front, c :: text => if f = c then dropFront? front text else none

/-- The text in front of `tail`, if it ends with `tail`. -/
def dropEnd? (tail text : List Char) : Option (List Char) :=
  (dropFront? tail.reverse text.reverse).map List.reverse

/-- Adds a character to the pieces on its right, or closes a piece at the separator. -/
def prependPiece (separator c : Char) : List (List Char) → List (List Char)
  | [] => if c = separator then [[], []] else [[c]]
  | piece :: rest => if c = separator then [] :: piece :: rest else (c :: piece) :: rest

/-- The pieces between the separators; always one more than there are separators. -/
def splitAtEach (separator : Char) (text : List Char) : List (List Char) :=
  text.foldr (prependPiece separator) [[]]

/-- The text in front of the first separator and behind it. -/
def splitAtFirst? (separator : Char) : List Char → Option (List Char × List Char)
  | [] => none
  | c :: rest =>
    if c = separator then some ([], rest)
    else (splitAtFirst? separator rest).map fun (before, after) => (c :: before, after)

/-- The text in front of the last separator and behind it. -/
def splitAtLast? (separator : Char) (text : List Char) : Option (List Char × List Char) :=
  (splitAtFirst? separator text.reverse).map fun (after, before) => (before.reverse, after.reverse)

/-- Text with every occurrence of a non-empty `old` exchanged, from left to right; the counter says
how many characters of an occurrence are still to be passed over. -/
def replaceFrom (old new : List Char) : Nat → List Char → List Char
  | _, [] => []
  | skip + 1, _ :: rest => replaceFrom old new skip rest
  | 0, c :: rest =>
    if old.isPrefixOf (c :: rest) then new ++ replaceFrom old new (old.length - 1) rest
    else c :: replaceFrom old new 0 rest

/-- Every occurrence of `old` exchanged for `new`; an empty `old` stands between any two characters
and at both ends. -/
def replaceAll (old new text : List Char) : List Char :=
  if old.isEmpty then new ++ text.flatMap (· :: new) else replaceFrom old new 0 text

/-- What `dropFront?` cuts off is the front it was given. -/
theorem dropFront?_eq_some_iff {front text rest : List Char} :
    dropFront? front text = some rest ↔ text = front ++ rest := by
  fun_induction dropFront? front text with
  | case1 text => simp [eq_comm]
  | case2 => simp
  | case3 f front text ih => simp [ih]
  | case4 f front c text h => simp; intro hc; exact absurd hc.symm h

/-- Nothing is cut off where the text does not start with the front. -/
theorem dropFront?_eq_none_iff {front text : List Char} :
    dropFront? front text = none ↔ front.isPrefixOf text = false := by
  fun_induction dropFront? front text with
  | case1 text => simp
  | case2 => simp
  | case3 f front text ih => simp [ih]
  | case4 f front c text h => simp [List.isPrefixOf, h]

theorem prependPiece_ne_nil (separator c : Char) (pieces : List (List Char)) :
    prependPiece separator c pieces ≠ [] := by
  unfold prependPiece
  repeat' split
  all_goals simp

/-- A split has at least one piece. -/
theorem splitAtEach_ne_nil (separator : Char) (text : List Char) :
    splitAtEach separator text ≠ [] := by
  cases text with
  | nil => simp [splitAtEach]
  | cons c rest => exact prependPiece_ne_nil separator c _

end Marginalia.Text
