import Marginalia.Number.Binary
import Marginalia.Number.Numeral

/-!
Decimal text of numbers: the digits of a natural number, the value of a decimal fraction, and the
fewest digits that read back as a given binary value.
-/

namespace Marginalia.Decimal

/-- The nearest value of a format to `significand · 10 ^ exponent`; far outside the range of every
format the power of ten is not computed. -/
def toBinary (f : BinaryFormat) (negative : Bool) (significand : Nat) (exponent : Int) : Binary :=
  if significand = 0 then .finite negative 0 f.least
  else
    let size : Int := (digits significand).length + exponent
    if size > 400 then .infinite negative
    else if size < -400 then .finite negative 0 f.least
    else if exponent ≥ 0 then
      Binary.ofQuotient f negative (significand * Nat.pow 10 exponent.toNat) 1
    else Binary.ofQuotient f negative significand (Nat.pow 10 (-exponent).toNat)

/-! ### Reading -/

/-- A sign in front of a number: whether it is negative, and what follows. -/
def takeSign : List Char → Bool × List Char
  | '-' :: rest => (true, rest)
  | '+' :: rest => (false, rest)
  | rest => (false, rest)

/-- The exponent part of a number, to the end of the text. -/
def exponent? : List Char → Option Int
  | [] => some 0
  | c :: rest =>
    if c = 'e' || c = 'E' then
      let (negative, ds) := takeSign rest
      if ds.isEmpty || !ds.all Char.isDigit then none
      else some (if negative then -(value ds : Int) else value ds)
    else none

/-- Reads a number written with digits, perhaps a point and perhaps an exponent, or one of the words
for infinity and for no number, in any case. -/
def parseBinary? (f : BinaryFormat) (text : List Char) : Option Binary :=
  let (negative, body) := takeSign text
  match String.ofList (body.map Char.toLower) with
  | "inf" | "infinity" => some (.infinite negative)
  | "nan" => some .nan
  | _ =>
    let whole := body.takeWhile Char.isDigit
    let rest := body.dropWhile Char.isDigit
    let (fraction, rest) :=
      match rest with
      | '.' :: more => (more.takeWhile Char.isDigit, more.dropWhile Char.isDigit)
      | _ => ([], rest)
    if whole.isEmpty && fraction.isEmpty then none
    else (exponent? rest).map fun e =>
      toBinary f negative (value (whole ++ fraction)) (e - fraction.length)

/-! ### The fewest digits -/

/-- The texts `num / den` that round to a value: twice its distance to either neighbour, in the unit
of a quarter of its last place, ends included when the number of its units is even. -/
structure Rounding where
  low : Nat
  high : Nat
  scale : Nat
  closed : Bool

/-- The interval of the reals that round to `units · 2 ^ exponent`, as `low / scale` to
`high / scale`. -/
def roundingOf (f : BinaryFormat) (units : Nat) (exponent : Int) : Rounding :=
  let below := if units = Nat.pow 2 (f.bits - 1) && exponent > f.least then 1 else 2
  let (num, den) := Binary.magnitude 1 exponent
  ⟨(4 * units - below) * num, (4 * units + 2) * num, 4 * den, units % 2 == 0⟩

/-- The interval has the number `n · 10 ^ k`. -/
def Rounding.contains (r : Rounding) (n : Nat) (k : Int) : Bool :=
  let (num, den) := if k ≥ 0 then (n * Nat.pow 10 k.toNat, 1) else (n, Nat.pow 10 (-k).toNat)
  let point := num * r.scale
  if r.closed then r.low * den ≤ point && point ≤ r.high * den
  else r.low * den < point && point < r.high * den

/-- The point of the grid of step `10 ^ k` that lies in the interval, the nearer one to the value if
both neighbours do and the even one of two that are equally near. -/
def gridPoint? (f : BinaryFormat) (units : Nat) (exponent k : Int) : Option Nat :=
  let r := roundingOf f units exponent
  let (num, den) := Binary.magnitude units exponent
  let (num, den) :=
    if k ≥ 0 then (num, den * Nat.pow 10 k.toNat) else (num * Nat.pow 10 (-k).toNat, den)
  let below := num / den
  let preferred := Binary.nearest num den
  let other := if preferred = below then below + 1 else below
  [preferred, other].find? (r.contains · k)

/-- The exponent of the first decimal digit of `num / den`, at most one too low. -/
def leadingExponent (num den : Nat) : Int :=
  let guess : Int := (digits num).length - (digits den).length
  -- the quotient lies between `10 ^ (guess - 1)` and `10 ^ (guess + 1)`
  let reaches :=
    if guess ≥ 0 then num ≥ den * Nat.pow 10 guess.toNat
    else num * Nat.pow 10 (-guess).toNat ≥ den
  if reaches then guess else guess - 1

/-- Drops the zeros at the end of a significand. -/
def dropZeros (fuel n : Nat) (k : Int) : Nat × Int :=
  match fuel with
  | 0 => (n, k)
  | fuel + 1 => if n % 10 = 0 && n ≠ 0 then dropZeros fuel (n / 10) (k + 1) else (n, k)

/-- The significand and the exponent of the shortest decimal that reads back as a non-zero value. -/
def shortest (f : BinaryFormat) (units : Nat) (exponent : Int) : Nat × Int :=
  let (num, den) := Binary.magnitude units exponent
  let lead := leadingExponent num den
  let found := (List.range 18).findSome? fun (i : Nat) =>
    let k := lead - (i : Int)
    (gridPoint? f units exponent k).map (·, k)
  let (n, k) := found.getD (0, 0)
  dropZeros 20 n k

/-- How a decimal is laid out: positional with a point while its digits reach at most thirteen
places to the left and begin at most six places to the right, with an exponent otherwise. -/
def layout (negative : Bool) (significand : Nat) (exponent : Int) : Numeral :=
  let ds := digits significand
  let point : Int := ds.length + exponent
  if exponent ≥ 0 && point ≤ 13 then
    ⟨negative, ds ++ List.replicate exponent.toNat '0', ['0'], none⟩
  else if 0 < point && point ≤ 13 then
    ⟨negative, ds.take point.toNat, ds.drop point.toNat, none⟩
  else if -6 < point && point ≤ 0 then
    ⟨negative, ['0'], List.replicate (-point).toNat '0' ++ ds, none⟩
  else
    let e := point - 1
    ⟨negative, ds.take 1, ds.drop 1, some (e < 0, digits e.natAbs)⟩

/-- The shortest numeral of a finite value; there is none for the others. -/
def numeral? (f : BinaryFormat) : Binary → Option Numeral
  | .finite negative units exponent =>
    if units = 0 then some ⟨negative, ['0'], ['0'], none⟩
    else
      let (n, k) := shortest f units exponent
      some (layout negative n k)
  | _ => none

end Marginalia.Decimal
