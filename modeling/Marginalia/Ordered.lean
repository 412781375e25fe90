/-!
Sorting by a key. Elements of equal keys keep their order.
-/

namespace Marginalia

/-- Puts an element in front of the first one that is not less than it. -/
def insertBy {α : Type} (less : α → α → Bool) (a : α) : List α → List α
  | [] => [a]
  | b :: rest => if less b a then b :: insertBy less a rest else a :: b :: rest

/-- The elements in order, equal ones as they came. -/
def sortBy {α : Type} (less : α → α → Bool) : List α → List α
  | [] => []
  | a :: rest => insertBy less a (sortBy less rest)

theorem insertBy_perm {α : Type} (less : α → α → Bool) (a : α) (xs : List α) :
    (insertBy less a xs).Perm (a :: xs) := by
  induction xs with
  | nil => exact .refl _
  | cons b rest ih =>
    rw [insertBy]
    split
    · exact (ih.cons b).trans (.swap a b rest)
    · exact .refl _

/-- Sorting loses and invents nothing. -/
theorem sortBy_perm {α : Type} (less : α → α → Bool) (xs : List α) : (sortBy less xs).Perm xs := by
  induction xs with
  | nil => exact .refl _
  | cons a rest ih => exact (insertBy_perm less a _).trans (ih.cons a)

end Marginalia
