import Mathlib.Data.Nat.Digits.Defs
import Marginalia.Number.Decimal

/-!
Numerals as they are written. The digits of a natural number stand for it and start with a zero only
if it is zero, and the shortest numeral of a binary value has the form that a JSON number has.
-/

namespace Marginalia

/-- A numeral of the form of a JSON number: digits in every part, none missing in front of the point
and behind the letter of the exponent, and no zero in front of other digits. -/
structure Numeral.IsWritten (n : Numeral) : Prop where
  whole_ne : n.whole ≠ []
  whole : ∀ c ∈ n.whole, c.isDigit = true
  zero : n.whole.head? = some '0' → n.whole = ['0']
  fraction : ∀ c ∈ n.fraction, c.isDigit = true
  exponent : ∀ x ∈ n.exponent, x.2 ≠ [] ∧ ∀ c ∈ x.2, c.isDigit = true

namespace Decimal

/-! ### Digits -/

theorem digits_eq (n : Nat) : digits n = Nat.toDigits 10 n := Nat.toList_repr

theorem digits_ne_nil (n : Nat) : digits n ≠ [] := digits_eq n ▸ Nat.toDigits_ne_nil

theorem isDigit_of_mem_digits {n : Nat} {c : Char} (h : c ∈ digits n) : c.isDigit = true :=
  Nat.isDigit_of_mem_toDigits (by decide) (by decide) (digits_eq n ▸ h)

/-- The digits of a number stand for it. -/
theorem value_digits (n : Nat) : value (digits n) = n := by
  rw [digits_eq]
  exact Nat.ofDigitChars_ten_toDigits

/-- Only the digits of zero start with a zero. -/
theorem eq_zero_of_head?_digits {n : Nat} (h : (digits n).head? = some '0') : n = 0 := by
  rw [digits_eq] at h
  induction n using Nat.strongRecOn with
  | ind n ih =>
    rw [Nat.toDigits_eq_if (by decide)] at h
    split at h
    · next hlt =>
      have hdigit : ∀ m < 10, [m.digitChar].head? = some '0' → m = 0 := by decide
      exact hdigit n hlt h
    · next hle =>
      obtain ⟨c, cs, hfront⟩ := List.exists_cons_of_ne_nil (Nat.toDigits_ne_nil (n := n / 10))
      rw [hfront, List.cons_append, List.head?_cons, ← List.head?_cons, ← hfront] at h
      have hzero := ih (n / 10) (by omega) h
      omega

theorem isWritten_ofNat (n : Nat) : (Numeral.ofNat n).IsWritten where
  whole_ne := digits_ne_nil n
  whole _ := isDigit_of_mem_digits
  zero h := by rw [Numeral.ofNat, eq_zero_of_head?_digits h]; rfl
  fraction := by simp [Numeral.ofNat]
  exponent := by simp [Numeral.ofNat]

/-! ### Layout -/

theorem digits_zero : digits 0 = ['0'] := rfl

/-- A front of the digits has what digits in front of a point must have. -/
theorem isWritten_of_take {negative : Bool} {fraction : List Char}
    {exponent : Option (Bool × List Char)} (n : Nat) {j : Nat} (hj : 0 < j)
    (hfraction : ∀ c ∈ fraction, c.isDigit = true)
    (hexponent : ∀ x ∈ exponent, x.2 ≠ [] ∧ ∀ c ∈ x.2, c.isDigit = true) :
    Numeral.IsWritten ⟨negative, (digits n).take j, fraction, exponent⟩ where
  whole_ne := by simp [digits_ne_nil]; omega
  whole c hc := isDigit_of_mem_digits (List.mem_of_mem_take hc)
  zero h := by
    have hn : n = 0 := eq_zero_of_head?_digits (by rwa [List.head?_take, if_neg (by omega)] at h)
    rw [hn, digits_zero]
    exact List.take_of_length_le hj
  fraction := hfraction
  exponent := hexponent

/-- A decimal is laid out as a numeral, zero if no zeros have to follow it. -/
theorem isWritten_layout (negative : Bool) {n : Nat} {k : Int} (h : n = 0 → k = 0) :
    (layout negative n k).IsWritten := by
  unfold layout
  dsimp only
  split_ifs with h1 h2 h3
  · refine ⟨by simp [digits_ne_nil], ?_, fun hzero => ?_, by simp, by simp⟩
    · intro c hc
      rcases List.mem_append.1 hc with hc | hc
      · exact isDigit_of_mem_digits hc
      · rw [List.eq_of_mem_replicate hc]; rfl
    · have hn : n = 0 := by
        refine eq_zero_of_head?_digits ?_
        rwa [List.head?_append, List.head?_eq_some_head (digits_ne_nil n), Option.some_or,
          ← List.head?_eq_some_head] at hzero
      rw [h hn, hn]; rfl
  · exact isWritten_of_take n (by simp at h2; omega)
      (fun c hc => isDigit_of_mem_digits (List.mem_of_mem_drop hc)) (by simp)
  · refine ⟨by simp, by simp, fun _ => rfl, ?_, by simp⟩
    intro c hc
    rcases List.mem_append.1 hc with hc | hc
    · rw [List.eq_of_mem_replicate hc]; rfl
    · exact isDigit_of_mem_digits hc
  · refine isWritten_of_take n (by omega)
      (fun c hc => isDigit_of_mem_digits (List.mem_of_mem_drop hc)) ?_
    rintro _ ⟨⟩
    exact ⟨digits_ne_nil _, fun c => isDigit_of_mem_digits⟩

/-! ### The fewest digits -/

theorem magnitude_pos {units : Nat} (h : units ≠ 0) (exponent : Int) :
    0 < (Binary.magnitude units exponent).1 := by
  have hpos : 0 < units := Nat.pos_of_ne_zero h
  unfold Binary.magnitude
  split
  · exact Nat.mul_pos hpos (Nat.pow_pos (by decide))
  · exact hpos

/-- What rounds to a value other than zero is greater than zero. -/
theorem low_roundingOf_pos (f : BinaryFormat) {units : Nat} (h : units ≠ 0) (exponent : Int) :
    0 < (roundingOf f units exponent).low := by
  have hone := magnitude_pos Nat.one_ne_zero exponent
  unfold roundingOf
  refine Nat.mul_pos ?_ hone
  split <;> omega

theorem ne_zero_of_contains {r : Rounding} (hlow : 0 < r.low) {n : Nat} {k : Int}
    (h : r.contains n k = true) : n ≠ 0 := by
  rintro rfl
  have hten : 0 < Nat.pow 10 (-k).toNat := Nat.pow_pos (by decide)
  have hpos := Nat.mul_pos hlow hten
  unfold Rounding.contains at h
  simp only [Nat.zero_mul] at h
  split_ifs at h <;> simp_all

theorem gridPoint?_ne_zero (f : BinaryFormat) {units : Nat} (h : units ≠ 0) {exponent k : Int}
    {n : Nat} (hn : gridPoint? f units exponent k = some n) : n ≠ 0 := by
  have hcontains : (roundingOf f units exponent).contains n k = true :=
    List.find?_some (p := ((roundingOf f units exponent).contains · k)) hn
  exact ne_zero_of_contains (low_roundingOf_pos f h exponent) hcontains

theorem dropZeros_ne_zero (fuel : Nat) {n : Nat} (h : n ≠ 0) (k : Int) :
    (dropZeros fuel n k).1 ≠ 0 := by
  induction fuel generalizing n k with
  | zero => exact h
  | succ fuel ih =>
    rw [dropZeros]
    split
    · next hzero => exact ih (by simp at hzero; omega) _
    · exact h

/-- The shortest decimal of a value other than zero is no zero with zeros behind it. -/
theorem shortest_eq_zero (f : BinaryFormat) {units : Nat} (h : units ≠ 0) (exponent : Int)
    (hzero : (shortest f units exponent).1 = 0) : (shortest f units exponent).2 = 0 := by
  unfold shortest at hzero ⊢
  dsimp only at hzero ⊢
  cases hfound : (List.range 18).findSome? fun (i : Nat) =>
    (gridPoint? f units exponent _).map (·, _) with
  | none => rfl
  | some point =>
    obtain ⟨i, -, hi⟩ := List.exists_of_findSome?_eq_some hfound
    obtain ⟨n, hn, rfl⟩ := Option.map_eq_some_iff.1 hi
    rw [hfound] at hzero
    exact absurd hzero (dropZeros_ne_zero 20 (gridPoint?_ne_zero f h hn) _)

/-- The shortest numeral of a value is written as numerals are. -/
theorem isWritten_of_numeral? {f : BinaryFormat} {b : Binary} {n : Numeral}
    (h : numeral? f b = some n) : n.IsWritten := by
  cases b with
  | finite negative units exponent =>
    rw [numeral?] at h
    split at h
    · obtain rfl := Option.some.inj h
      exact ⟨by simp, by simp, fun _ => rfl, by simp, by simp⟩
    · next hunits =>
      obtain rfl := Option.some.inj h
      exact isWritten_layout negative (shortest_eq_zero f hunits exponent)
  | infinite => cases h
  | nan => cases h

end Decimal

end Marginalia
