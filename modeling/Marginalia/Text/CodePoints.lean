/-!
Sets of characters that follow a standard table. A set is stored as the ascending code points at
which membership turns, so a long run costs two numbers and a character is a member exactly when an
odd number of turns lies at or below it.
-/

namespace Marginalia.Text

/-- A set of code points, given by the ascending points at which membership turns. -/
structure CodePointSet where
  turns : List Nat

/-- Membership: an odd number of turns lies at or below the character. -/
def CodePointSet.mem (s : CodePointSet) (c : Char) : Bool :=
  s.turns.countP (· ≤ c.toNat) % 2 == 1

/-- The set of the code points from `lo` up to and without `hi`. -/
def CodePointSet.interval (lo hi : Nat) : CodePointSet := ⟨[lo, hi]⟩

theorem CodePointSet.mem_interval (lo hi : Nat) (c : Char) (h : lo ≤ hi) :
    (interval lo hi).mem c = decide (lo ≤ c.toNat ∧ c.toNat < hi) := by
  by_cases h1 : lo ≤ c.toNat <;> by_cases h2 : hi ≤ c.toNat <;>
    simp [interval, mem, h1, h2] <;> omega

end Marginalia.Text
