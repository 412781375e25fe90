import Marginalia.Domain.DirectionTable
import Marginalia.Text.Blank
import Marginalia.Text.Canonical
import Marginalia.Text.MarkTable

/-!
Labels in scripts that are written from right to left, and in cursive scripts. A label has one
direction, which its first letter shows, and ends in that direction; an invisible joiner stands only
where it changes how letters look.
-/

namespace Marginalia.Domain

open Text

/-- How a character is placed among others. -/
inductive Direction where
  | left
  | right
  | arabicNumber
  | europeanNumber
  | neutral
  | nonspacing
  deriving DecidableEq, Repr

/-- Marks without room of their own that count as letters written from left to right. -/
def leftMarks : List Nat := [0xCBF, 0xCC6, 0x11A07, 0x11A08, 0x11C3F]

/-- The direction of a character. -/
def directionOf (c : Char) : Direction :=
  if rightSet.mem c then .right
  else if arabicNumberSet.mem c then .arabicNumber
  else if europeanNumberSet.mem c then .europeanNumber
  else if neutralSet.mem c then .neutral
  else if nonspacingSet.mem c && !leftMarks.contains c.toNat then .nonspacing
  else .left

/-- A label with such a character needs one direction, and all labels beside it. -/
def isFromRight (c : Char) : Bool := [.right, .arabicNumber].contains (directionOf c)

/-- The label has one direction. -/
def hasOneDirection (label : List Char) : Bool :=
  let body := (dropTrailing (directionOf · == .nonspacing) label).map directionOf
  match label.head?.map directionOf with
  | none => true
  | some .left =>
    body.all ([.left, .europeanNumber, .neutral, .nonspacing].contains ·)
      && body.getLast?.any ([.left, .europeanNumber].contains ·)
  | some .right =>
    body.all (· != .left)
      && body.getLast?.any ([.right, .europeanNumber, .arabicNumber].contains ·)
      && !(body.contains .europeanNumber && body.contains .arabicNumber)
  | some _ => false

/-- A mark that letters join through. -/
def isTransparent (c : Char) : Bool := nonspacingSet.mem c || c.toNat = 0x1E94B

/-- The next letter, in some direction, is one of `letters`. -/
def leadsTo (letters : CodePointSet) (text : List Char) : Bool :=
  ((text.dropWhile isTransparent).head?.map letters.mem).getD false

/-- An invisible character that makes letters join, or keeps them from it. -/
def isJoiner (c : Char) : Bool := c.toNat = 0x200C || c.toNat = 0x200D

/-- A joiner has an effect behind `before`, in reverse, and in front of `after`: it follows a mark
that takes a vowel away, or keeps two letters apart that would join. -/
def hasEffect (joiner : Char) (before after : List Char) : Bool :=
  match before with
  | [] => false
  | c :: _ =>
    markClass c = 9
      || (joiner.toNat = 0x200C && leadsTo joinsAfterSet before && leadsTo joinsBeforeSet after)

/-- All joiners behind `before`, in reverse, have an effect. -/
def joinersFit (before : List Char) : List Char → Bool
  | [] => true
  | c :: rest => (!isJoiner c || hasEffect c before rest) && joinersFit (c :: before) rest

/-- A label without joiners passes. -/
theorem joinersFit_of_none {before label : List Char} (h : ∀ c ∈ label, isJoiner c = false) :
    joinersFit before label = true := by
  induction label generalizing before with
  | nil => rfl
  | cons c rest ih =>
    simp only [List.mem_cons, forall_eq_or_imp] at h
    simp [joinersFit, h.1, ih h.2]

end Marginalia.Domain
