import Marginalia.Text.CaseTable
import Marginalia.Text.Word

/-!
Lower case. Each character has a lower-case form of one character, with one exception that has two.
In running text a capital sigma becomes the final sigma where it ends its word: a cased character
stands before it and none behind it, accents and the like passed over on both sides.
-/

namespace Marginalia.Text

/-- An upper-case character. -/
def isUpper (c : Char) : Bool :=
  if c.toNat < 128 then 'A' ≤ c && c ≤ 'Z' else upperSet.mem c

/-- A lower-case character. -/
def isLower (c : Char) : Bool :=
  if c.toNat < 128 then 'a' ≤ c && c ≤ 'z' else lowerSet.mem c

/-- The lower-case form of one character taken alone. -/
def lowerChar (c : Char) : List Char :=
  if c.toNat < 128 then [c.toLower]
  else if c.toNat = 0x130 then ['i', Char.ofNat 0x307]
  else match lowerRuns.findSome? (·.lowerForm? c.toNat) with
    | some n => [Char.ofNat n]
    | none => [c]

/-- A character that has a case. -/
def isCased (c : Char) : Bool :=
  if c.toNat < 128 then isLetter c else casedSet.mem c

/-- A character that the search for the end of a word passes over. -/
def isPassedOver (c : Char) : Bool :=
  if c.toNat < 128 then ['\x27', '.', ':', '^', '\x60'].contains c else passedOverSet.mem c

/-- A cased character follows, accents passed over. -/
def casedFollows (text : List Char) : Bool :=
  ((text.dropWhile isPassedOver).head?.map isCased).getD false

/-- Lower case of running text in front of which `done` was written, in reverse; `after` says
whether a cased character precedes the text. -/
def lowerFrom (after : Bool) (done : List Char) : List Char → List Char
  | [] => done.reverse
  | c :: rest =>
    let form :=
      if c = 'Σ' then [if after && !casedFollows rest then 'ς' else 'σ'] else lowerChar c
    lowerFrom (if isPassedOver c then after else isCased c) (form.reverse ++ done) rest

/-- Lower case of running text. -/
def lower (text : List Char) : List Char :=
  if text.all (·.toNat < 128) then text.map Char.toLower else lowerFrom false [] text

/-- Lower case of a string. -/
def lowered (s : String) : String := String.ofList (lower s.toList)

/-- An upper-case ASCII letter is not a lower-case one. -/
theorem isLower_of_isUpper_ascii {c : Char} (h : c.toNat < 128) (hu : isUpper c = true) :
    isLower c = false := by
  simp only [isUpper, isLower, h, if_true, Bool.and_eq_true, decide_eq_true_eq] at hu ⊢
  have hz : ¬ 'a' ≤ c := by
    intro ha
    have h1 : 'a'.toNat ≤ c.toNat := ha
    have h2 : c.toNat ≤ 'Z'.toNat := hu.2
    exact absurd (Nat.le_trans h1 h2) (by decide)
  simp [hz]

end Marginalia.Text
