import Marginalia.Text.CanonicalTable

/-!
The canonical form of text. One and the same text can often be written in several ways: a letter
with an accent as one character or as two, two marks in either order. The canonical form takes all
characters apart, orders the marks behind each character by their classes, and puts together again
what has a character of its own.
-/

namespace Marginalia.Text

/-- The class of a mark; all other characters have class zero. -/
def markClass (c : Char) : Nat :=
  if c.toNat < 768 then 0
  else ((markClasses.find? fun (_, marks) => marks.mem c).map (·.1)).getD 0

/-! ### Syllables -/

/-- The number of a Korean syllable. -/
def syllable? (c : Char) : Option Nat :=
  if 0xAC00 ≤ c.toNat && c.toNat < 0xD7A4 then some (c.toNat - 0xAC00) else none

/-- The letters of a syllable: two of them, and perhaps a third one at its end. -/
def lettersOf (syllable : Nat) : List Char :=
  let final := syllable % 28
  [Char.ofNat (0x1100 + syllable / 588), Char.ofNat (0x1161 + syllable % 588 / 28)]
    ++ if final = 0 then [] else [Char.ofNat (0x11A7 + final)]

/-- The syllable of two letters, or of a syllable and a letter at its end. -/
def joinSyllable? (a b : Char) : Option Char :=
  if 0x1100 ≤ a.toNat && a.toNat < 0x1113 && 0x1161 ≤ b.toNat && b.toNat < 0x1176 then
    some (Char.ofNat (0xAC00 + 588 * (a.toNat - 0x1100) + 28 * (b.toNat - 0x1161)))
  else if (syllable? a).any (· % 28 = 0) && 0x11A8 ≤ b.toNat && b.toNat < 0x11C3 then
    some (Char.ofNat (a.toNat + (b.toNat - 0x11A7)))
  else none

/-! ### Taking apart and putting together -/

/-- The characters that a character is made up of. -/
def componentsOf (c : Char) : List Char :=
  if c.toNat < 128 then [c]
  else match syllable? c with
    | some syllable => lettersOf syllable
    | none => ((compositeTable.form? c).orElse fun _ => replacedTable.form? c).getD [c]

/-- Puts a character in front of ordered text; a mark passes over the marks of smaller classes. -/
def insertMark (c : Char) : List Char → List Char
  | [] => [c]
  | d :: rest =>
    if 0 < markClass d && markClass d < markClass c then d :: insertMark c rest
    else c :: d :: rest

/-- The marks behind each character in the order of their classes. -/
def orderMarks (text : List Char) : List Char := text.foldr insertMark []

/-- The character that two characters make up. -/
def join? (a b : Char) : Option Char :=
  (joinSyllable? a b).orElse fun _ => compositeTable.charOf? (componentsOf a ++ [b])

/-- Puts text together behind a character. The marks that are kept behind it, in reverse, stand in
the way of those of no larger class. -/
def joinFrom (base : Char) (kept : List Char) : List Char → List Char
  | [] => base :: kept.reverse
  | c :: rest =>
    let reaches := match kept with
      | [] => true
      | mark :: _ => markClass mark < markClass c
    match if reaches then join? base c else none with
    | some joined => joinFrom joined kept rest
    | none =>
      if markClass c = 0 then base :: kept.reverse ++ joinFrom c [] rest
      else joinFrom base (c :: kept) rest

/-- The canonical form. -/
def canonical (text : List Char) : List Char :=
  if text.all (·.toNat < 128) then text
  else match orderMarks (text.flatMap componentsOf) with
    | [] => []
    | c :: rest => joinFrom c [] rest

/-- Putting a character into ordered text loses nothing and adds nothing. -/
theorem insertMark_perm (c : Char) (text : List Char) : (insertMark c text).Perm (c :: text) := by
  induction text with
  | nil => exact .refl _
  | cons d rest ih =>
    simp only [insertMark]
    split
    · exact (List.Perm.cons d ih).trans (.swap c d rest)
    · exact .refl _

/-- Ordering marks loses nothing and adds nothing. -/
theorem orderMarks_perm (text : List Char) : (orderMarks text).Perm text := by
  induction text with
  | nil => exact .refl _
  | cons c rest ih => exact (insertMark_perm c _).trans (.cons c ih)

/-- Text in ASCII is in canonical form. -/
theorem canonical_of_ascii {text : List Char} (h : ∀ c ∈ text, c.toNat < 128) :
    canonical text = text := by
  have : text.all (·.toNat < 128) = true := by simpa using h
  simp [canonical, this]

end Marginalia.Text
