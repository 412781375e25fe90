import Marginalia.Number.Digit
import Marginalia.Text.Search

/-!
Labels in ASCII. The characters outside of ASCII are taken out of a label; behind what is left, a
hyphen and a list of numbers say how to put them back, in ascending order. Each number counts the
places that are passed over since the last insertion, all places of the label for one character
before the places for the next one. A number has its lowest digit first, and a digit below a
threshold is its last one; the thresholds adapt to the numbers that were written.
-/

namespace Marginalia.Domain

open Text

/-! ### Numbers -/

/-- The digit of a value: letters, then figures. -/
def digitOf (n : Nat) : Char :=
  if n < 26 then Char.ofNat ('a'.toNat + n) else Char.ofNat ('0'.toNat + (n - 26))

/-- The value of a digit. -/
def digitValue? (c : Char) : Option Nat :=
  if c.isLower then some (c.toNat - 'a'.toNat)
  else if c.isDigit then some (c.toNat - '0'.toNat + 26)
  else none

/-- The threshold of the digit at some distance, which grows by 36 from digit to digit. -/
def threshold (bias distance : Nat) : Nat :=
  if distance ≤ bias then 1 else if bias + 26 ≤ distance then 26 else distance - bias

theorem threshold_pos (bias distance : Nat) : 0 < threshold bias distance := by
  unfold threshold
  repeat' split
  all_goals omega

theorem threshold_le (bias distance : Nat) : threshold bias distance ≤ 26 := by
  unfold threshold
  repeat' split
  all_goals omega

/-- The digits of a number from some distance on. -/
def writeNumber (bias distance n : Nat) : List Char :=
  let t := threshold bias distance
  if n < t then [digitOf n]
  else digitOf (t + (n - t) % (36 - t)) :: writeNumber bias (distance + 36) ((n - t) / (36 - t))
termination_by n
decreasing_by
  have h := threshold_pos bias distance
  exact Nat.lt_of_le_of_lt (Nat.div_le_self _ _) (by omega)

/-- Reads a number from some distance on, each digit by its weight, and gives what follows it. -/
def readNumber? (bias distance weight : Nat) : List Char → Option (Nat × List Char)
  | [] => none
  | c :: rest => do
    let digit ← digitValue? c
    let t := threshold bias distance
    if digit < t then return (digit * weight, rest)
    let (n, rest) ← readNumber? bias (distance + 36) (weight * (36 - t)) rest
    return (digit * weight + n, rest)

/-- A number has at least one digit. -/
theorem length_lt_of_readNumber? {bias distance weight : Nat} {text : List Char}
    {result : Nat × List Char} (h : readNumber? bias distance weight text = some result) :
    result.2.length < text.length := by
  induction text generalizing distance weight result with
  | nil => simp [readNumber?] at h
  | cons c rest ih =>
    simp only [readNumber?, Option.bind_eq_bind, Option.bind_eq_some_iff] at h
    obtain ⟨digit, -, h⟩ := h
    split at h
    · cases h
      simp
    · simp only [Option.bind_eq_some_iff] at h
      obtain ⟨⟨n, rest'⟩, h, hr⟩ := h
      have shorter := ih h
      cases hr
      exact Nat.lt_succ_of_lt shorter

/-- A number is divided by 35 until it is small; each time counts 36. -/
def shrink (n counted : Nat) : Nat :=
  if h : 455 < n then shrink (n / 35) (counted + 36) else counted + 36 * n / (n + 38)
termination_by n
decreasing_by omega

/-- The bias behind a number. -/
def adapt (isFirst : Bool) (n length : Nat) : Nat :=
  let n := if isFirst then n / 700 else n / 2
  shrink (n + n / length) 0

/-! ### Insertions -/

/-- How far insertions have come: up to which character, and to which place for it. -/
structure Progress where
  point : Nat
  place : Nat
  /-- The number of characters in the label. -/
  length : Nat
  bias : Nat

namespace Progress

/-- At the start there are only ASCII characters. -/
def start (length : Nat) : Progress := ⟨128, 0, length, 72⟩

/-- The number of places that an insertion passes over. -/
def passed (p : Progress) (point place : Nat) : Nat :=
  (point - p.point) * (p.length + 1) + place - p.place

/-- The character and the place that are reached over some places. -/
def reach (p : Progress) (passed : Nat) : Nat × Nat :=
  let places := p.place + passed
  (p.point + places / (p.length + 1), places % (p.length + 1))

/-- Behind an insertion that passed over some places. -/
def next (p : Progress) (passed : Nat) : Progress :=
  let (point, place) := p.reach passed
  ⟨point, place + 1, p.length + 1, adapt (p.place = 0) passed (p.length + 1)⟩

end Progress

/-- The characters to insert, in order, each one with its place among the characters that are in the
label before it. -/
def insertions (label : List Char) : List (Nat × Nat) :=
  let points := ((label.map Char.toNat).filter (128 ≤ ·)).mergeSort.eraseDups
  points.flatMap fun point =>
    (label.zipIdx.filter (·.1.toNat = point)).map fun (_, i) =>
      (point, (label.take i).countP (·.toNat ≤ point))

/-- The numbers of insertions. -/
def encodeFrom (p : Progress) : List (Nat × Nat) → List Char
  | [] => []
  | (point, place) :: rest =>
    let passed := p.passed point place
    writeNumber p.bias 36 passed ++ encodeFrom (p.next passed) rest

/-- A label in ASCII. -/
def encode (label : List Char) : List Char :=
  let basic := label.filter (·.toNat < 128)
  basic ++ (if basic.isEmpty then [] else ['-'])
    ++ encodeFrom (.start basic.length) (insertions label)

/-- Puts characters back into a label. -/
def decodeFrom? (p : Progress) (label : List Char) : List Char → Option (List Char)
  | [] => some label
  | c :: code =>
    match _h : readNumber? p.bias 36 1 (c :: code) with
    | none => none
    | some (passed, rest) =>
      let (point, place) := p.reach passed
      if point.isValidChar then
        decodeFrom? (p.next passed) (label.insertIdx place (Char.ofNat point)) rest
      else none
termination_by code => code.length
decreasing_by exact length_lt_of_readNumber? _h

/-- The label that is written in ASCII; without ASCII characters of its own it has no hyphen. -/
def decode? (code : List Char) : Option (List Char) :=
  match splitAtLast? '-' code with
  | some (b :: basic, numbers) => decodeFrom? (.start (b :: basic).length) (b :: basic) numbers
  | _ => decodeFrom? (.start 0) [] code

end Marginalia.Domain
