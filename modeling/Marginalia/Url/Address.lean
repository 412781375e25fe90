import Marginalia.Number.Digit
import Marginalia.Number.Numeral
import Marginalia.Text.Search

/-!
Hosts that are numbers. A host whose last part is a number has to be an address of four bytes, and a
host in brackets one of eight groups of sixteen bits. Both have one normal form, whatever way they
were written.
-/

namespace Marginalia.Address

open Text

/-! ### Four bytes -/

/-- A part of an address: a decimal number, an octal one behind a zero or a hexadecimal one behind
its mark. -/
def part? : List Char → Option Nat
  | [] => none
  | '0' :: 'x' :: ds | '0' :: 'X' :: ds => Digit.number? 16 ds
  | '0' :: d :: ds => Digit.number? 8 (d :: ds)
  | ds => Digit.number? 10 ds

/-- The parts of a host, without an empty one at the end. -/
def partsOf (host : List Char) : List (List Char) :=
  match (splitAtEach '.' host).reverse with
  | [] :: part :: rest => (part :: rest).reverse
  | parts => parts.reverse

/-- The last part of a host is a number, or looks like one. -/
def endsInNumber (host : List Char) : Bool :=
  match (partsOf host).getLast? with
  | none => false
  | some part =>
    (!part.isEmpty && part.all Char.isDigit)
      || match part with
        | '0' :: 'x' :: _ | '0' :: 'X' :: _ => (part? part).isSome
        | _ => false

/-- The number that the parts of an address make up: each one is a byte but the last, which fills
the bytes that are left. -/
def ofParts? : (bytes : Nat) → List Nat → Option Nat
  | 0, _ | _, [] => none
  | bytes, [last] => if last < Nat.pow 256 bytes then some last else none
  | bytes + 1, first :: rest =>
    if first < 256 then (ofParts? bytes rest).map (first * Nat.pow 256 bytes + ·) else none

/-- The number of the four-byte address that a host writes down. -/
def fourBytes? (host : List Char) : Option Nat := ((partsOf host).mapM part?).bind (ofParts? 4)

/-- The normal form of a four-byte address. -/
def fourBytesText (n : Nat) : List Char :=
  List.intercalate ['.'] ([3, 2, 1, 0].map fun i => Decimal.digits (n / Nat.pow 256 i % 256))

/-! ### Eight groups -/

/-- A group of an address: one to four hexadecimal digits. -/
def group? (ds : List Char) : Option Nat :=
  if ds.isEmpty || ds.length > 4 then none else Digit.number? 16 ds

/-- A byte in decimal digits, without a zero in front. -/
def byte? (ds : List Char) : Option Nat :=
  if ds.isEmpty || (ds.head? == some '0' && ds.length > 1) then none
  else (Digit.number? 10 ds).filter (· < 256)

/-- The groups of a part of an address; its end may be written as four bytes. -/
def groups? (text : List Char) : Option (List Nat) :=
  if text.isEmpty then some []
  else
    let pieces := splitAtEach ':' text
    match pieces.getLast? with
    | none => none
    | some last => do
      let front ← pieces.dropLast.mapM group?
      if last.contains '.' then
        match (splitAtEach '.' last).mapM byte? with
        | some [a, b, c, d] => return front ++ [a * 256 + b, c * 256 + d]
        | _ => none
      else return front ++ [← group? last]

/-- Cuts text at the first pair of colons. -/
def splitAtPair? : List Char → Option (List Char × List Char)
  | ':' :: ':' :: rest => some ([], rest)
  | c :: rest => (splitAtPair? rest).map fun (before, after) => (c :: before, after)
  | [] => none

/-- The eight groups of an address; a pair of colons stands for the zeros that are missing. -/
def eightGroups? (text : List Char) : Option (List Nat) :=
  match splitAtPair? text with
  | none => (groups? text).filter (·.length = 8)
  | some (front, back) => do
    if front.contains '.' then none
    let front ← groups? front
    let back ← groups? back
    let missing := 8 - (front.length + back.length)
    if missing = 0 then none else return front ++ List.replicate missing 0 ++ back

/-- The number of zeros that groups start with. -/
def zerosAhead (groups : List Nat) : Nat := (groups.takeWhile (· == 0)).length

/-- The first of the longest runs of zeros: where it starts, and its length. -/
def longestZeros (groups : List Nat) : Nat × Nat :=
  (List.range groups.length).foldl
    (fun (start, length) i =>
      if zerosAhead (groups.drop i) > length then (i, zerosAhead (groups.drop i))
      else (start, length))
    (0, 0)

/-- Groups in hexadecimal digits with colons between them. -/
def groupsText (groups : List Nat) : List Char :=
  List.intercalate [':'] (groups.map fun n => Nat.toDigits 16 n)

/-- The normal form of eight groups: a pair of colons stands for the longest run of zeros, if that
is longer than one. -/
def eightGroupsText (groups : List Nat) : List Char :=
  let (start, length) := longestZeros groups
  if length < 2 then groupsText groups
  else groupsText (groups.take start) ++ [':', ':'] ++ groupsText (groups.drop (start + length))

/-- The normal form of an address has four parts. -/
theorem fourBytesText_eq (n : Nat) :
    fourBytesText n = Decimal.digits (n / 16777216 % 256) ++ '.' ::
      (Decimal.digits (n / 65536 % 256) ++ '.' ::
        (Decimal.digits (n / 256 % 256) ++ '.' :: Decimal.digits (n % 256))) := by
  simp [fourBytesText, List.intercalate]

end Marginalia.Address
