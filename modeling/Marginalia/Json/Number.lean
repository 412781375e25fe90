import Marginalia.Json
import Marginalia.Number.Decimal

/-!
The numbers that JSON numerals stand for. Counts are kept in sixty-four bits. A numeral that is no
such integer is read as a binary fraction of sixty-four bits by a fixed recipe: as many digits as
fit into a count make up the significand, and one multiplication or division by a power of ten, or a
few for small exponents, give the value.
-/

namespace Marginalia

namespace Numeral

/-- The counts lie below this bound. -/
def countBound : Nat := Nat.pow 2 64

/-- The greatest exponent that can be written with significant digits before it. -/
def exponentBound : Nat := Nat.pow 2 31

/-- A count: digits alone, below the bound. -/
def count? (n : Numeral) : Option Nat := n.natural?.filter (· < countBound)

/-- The longest front of the digits that is a count, and the digits behind it. -/
def takeCount (significand : Nat) : List Char → Nat × List Char
  | [] => (significand, [])
  | d :: rest =>
    let next := 10 * significand + Decimal.digitValue d
    if next < countBound then takeCount next rest else (significand, d :: rest)

/-- The significand of a numeral and the exponent of its last digit, before the written exponent. -/
def significand (n : Numeral) : Nat × Int :=
  let (whole, dropped) := takeCount 0 n.whole
  let (both, rest) := takeCount whole n.fraction
  (both, (dropped.length : Int) - ((n.fraction.length - rest.length : Nat) : Int))

/-- A power of ten as the nearest double. -/
def tenTo (k : Nat) : Binary := Binary.ofQuotient .double false (Nat.pow 10 k) 1

/-- Scales a value by a power of ten; a value that leaves the range upward is refused. -/
def scale? (fuel : Nat) (v : Binary) (k : Int) : Option Binary :=
  match fuel with
  | 0 => some v
  | fuel + 1 =>
    if k.natAbs ≤ 308 then
      if k ≥ 0 then some (Binary.times .double v (tenTo k.natAbs)) |>.filter (·.isFinite)
      else some (Binary.dividedBy .double v (tenTo k.natAbs))
    else if v.isZero then some v
    else if k ≥ 0 then none
    else scale? fuel (Binary.dividedBy .double v (tenTo 308)) (k + 308)

/-- The double that a numeral stands for; there is none beyond the greatest double. -/
def double? (n : Numeral) : Option Binary :=
  let (s, k) := n.significand
  let zero := Binary.finite n.negative 0 BinaryFormat.double.least
  let start := Binary.ofQuotient .double n.negative s 1
  match n.exponent with
  | none => scale? 8 start k
  | some (negative, ds) =>
    let e := Decimal.value ds
    if e ≥ exponentBound then (if s ≠ 0 && !negative then none else some zero)
    else scale? 8 start (if negative then k - e else k + e)

/-- The single that a numeral stands for: an integer within sixty-four bits is rounded once, any
other numeral is a double first. -/
def single? (n : Numeral) : Option Single :=
  let v := Decimal.value n.whole
  let direct := n.isInteger && (if n.negative then v ≤ countBound / 2 else v < countBound)
  if direct then some (Binary.ofQuotient .single n.negative v 1)
  else n.double?.map (Binary.toFormat .single)

end Numeral

end Marginalia
