/-!
Binary floating point in exact arithmetic. A finite value is a whole number of units times a power
of two; a quotient of natural numbers is rounded to the nearest value of a format, and to the one
with an even number of units when it lies half-way.
-/

namespace Marginalia

/-- A value of a binary format. -/
inductive Binary where
  | finite (negative : Bool) (units : Nat) (exponent : Int)
  | infinite (negative : Bool)
  | nan
  deriving DecidableEq, Repr, Inhabited

/-- What a binary format can hold: the bits of a value, and the exponents of its last bit. -/
structure BinaryFormat where
  bits : Nat
  least : Int
  greatest : Int

namespace BinaryFormat

/-- Values of thirty-two bits. -/
def single : BinaryFormat := ⟨24, -149, 104⟩

/-- Values of sixty-four bits. -/
def double : BinaryFormat := ⟨53, -1074, 971⟩

end BinaryFormat

namespace Binary

/-- The quotient, rounded to the nearest whole number and to the even one of two. -/
def nearest (num den : Nat) : Nat :=
  let q := num / den
  let r := num % den
  if 2 * r < den then q else if 2 * r > den then q + 1 else q + q % 2

/-- Rounding never goes below the whole part of a quotient. -/
theorem le_nearest (num den : Nat) : num / den ≤ nearest num den := by
  unfold nearest
  dsimp only
  split
  · exact Nat.le_refl _
  · split
    · exact Nat.le_succ _
    · exact Nat.le_add_right _ _

/-- Rounding adds at most one to the whole part of a quotient. -/
theorem nearest_le (num den : Nat) : nearest num den ≤ num / den + 1 := by
  unfold nearest
  dsimp only
  split
  · exact Nat.le_succ _
  · split
    · exact Nat.le_refl _
    · omega

/-- A non-zero quotient in units of `2 ^ exponent`, as a numerator and a denominator. -/
def scaled (num den : Nat) (exponent : Int) : Nat × Nat :=
  if exponent ≥ 0 then (num, den * Nat.pow 2 exponent.toNat)
  else (num * Nat.pow 2 (-exponent).toNat, den)

/-- The value of a format that is nearest to `num / den`. -/
def ofQuotient (f : BinaryFormat) (negative : Bool) (num den : Nat) : Binary :=
  if num = 0 then finite negative 0 f.least
  else
    let guess : Int := max f.least ((Nat.log2 num : Int) - (Nat.log2 den : Int) - f.bits)
    let (n, d) := scaled num den guess
    let exponent := if n / d ≥ Nat.pow 2 f.bits then guess + 1 else guess
    let (n, d) := scaled num den exponent
    let units := nearest n d
    let (units, exponent) :=
      if units = Nat.pow 2 f.bits then (Nat.pow 2 (f.bits - 1), exponent + 1) else (units, exponent)
    if exponent > f.greatest then infinite negative else finite negative units exponent

/-- Neither an infinity nor the value of no number. -/
def isFinite : Binary → Bool
  | finite .. => true
  | _ => false

/-- A zero of either sign. -/
def isZero : Binary → Bool
  | finite _ u _ => u == 0
  | _ => false

/-- The absolute value as a quotient. -/
def magnitude (units : Nat) (exponent : Int) : Nat × Nat :=
  if exponent ≥ 0 then (units * Nat.pow 2 exponent.toNat, 1)
  else (units, Nat.pow 2 (-exponent).toNat)

/-- The value rounded to another format. -/
def toFormat (f : BinaryFormat) : Binary → Binary
  | finite n u e => let (num, den) := magnitude u e; ofQuotient f n num den
  | other => other

/-- The product, rounded. -/
def times (f : BinaryFormat) : Binary → Binary → Binary
  | finite n u e, finite n' u' e' =>
    let (num, den) := magnitude u e
    let (num', den') := magnitude u' e'
    ofQuotient f (n != n') (num * num') (den * den')
  | nan, _ | _, nan => nan
  | infinite n, finite n' u _ => if u = 0 then nan else infinite (n != n')
  | finite n u _, infinite n' => if u = 0 then nan else infinite (n != n')
  | infinite n, infinite n' => infinite (n != n')

/-- The quotient by a finite value other than zero, rounded. -/
def dividedBy (f : BinaryFormat) : Binary → Binary → Binary
  | finite n u e, finite n' u' e' =>
    let (num, den) := magnitude u e
    let (num', den') := magnitude u' e'
    ofQuotient f (n != n') (num * den') (den * num')
  | infinite n, finite n' _ _ => infinite (n != n')
  | _, _ => nan

/-- A finite value that is greater than one. -/
def exceedsOne (units : Nat) (exponent : Int) : Bool :=
  let (num, den) := magnitude units exponent
  num > den

end Binary

/-- A value of thirty-two bits. -/
abbrev Single := Binary

namespace Single

/-- Zero. -/
def zero : Single := .finite false 0 (-149)

/-- One half. -/
def half : Single := .finite false (Nat.pow 2 23) (-24)

/-- One. -/
def one : Single := .finite false (Nat.pow 2 23) (-23)

/-- A value forced into the interval from zero to one; what is no finite number becomes zero, and
the negative zero stays as it is. -/
def toUnitInterval : Single → Single
  | .finite negative units exponent =>
    if negative then (if units = 0 then .finite negative units exponent else zero)
    else if Binary.exceedsOne units exponent then one
    else .finite negative units exponent
  | _ => zero

/-- A value forced into the unit interval is finite. -/
theorem isFinite_toUnitInterval (s : Single) : (toUnitInterval s).isFinite = true := by
  unfold toUnitInterval
  repeat' split
  all_goals rfl

end Single

end Marginalia
