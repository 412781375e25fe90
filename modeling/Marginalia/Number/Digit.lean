/-!
Digits of any base up to thirty-six: ten figures, and letters of either case.
-/

namespace Marginalia.Digit

/-- The value of a digit in some base. -/
def value? (base : Nat) (c : Char) : Option Nat :=
  let n :=
    if c.isDigit then c.toNat - '0'.toNat
    else if c.isLower then c.toNat - 'a'.toNat + 10
    else c.toNat - 'A'.toNat + 10
  if c.isAlphanum && n < base then some n else none

/-- The number that digits of some base stand for; no digits stand for zero. -/
def number? (base : Nat) (ds : List Char) : Option Nat :=
  ds.foldlM (fun n c => (value? base c).map (base * n + ·)) 0

/-- A digit is smaller than its base. -/
theorem lt_of_value? {base n : Nat} {c : Char} (h : value? base c = some n) : n < base := by
  simp only [value?, Option.ite_none_right_eq_some, Bool.and_eq_true, decide_eq_true_eq,
    Option.some.injEq] at h
  obtain ⟨⟨-, hn⟩, rfl⟩ := h
  exact hn

end Marginalia.Digit
