import Mathlib.Data.List.Pairwise
import Marginalia.Ordered

/-!
What sorting by a key comes to. The outcome is in order, what is in order already stays as it is,
and a list without equal keys has only one order.
-/

namespace Marginalia

variable {α β : Type} {less : α → α → Bool}

theorem sortBy_eq_self {xs : List α} (h : xs.Pairwise fun x y => less y x = false) :
    sortBy less xs = xs := by
  induction xs with
  | nil => rfl
  | cons x xs ih =>
    obtain ⟨hx, hxs⟩ := List.pairwise_cons.1 h
    rw [sortBy, ih hxs]
    cases xs with
    | nil => rfl
    | cons y ys => rw [insertBy, if_neg (by simp [hx y (by simp)])]

/-- An order of which sorting can make use: what is not less passes on. -/
structure IsKeyOrder (less : α → α → Bool) : Prop where
  asymm : ∀ {a b}, less a b = true → less b a = false
  trans : ∀ {a b c}, less b a = false → less c b = false → less c a = false

theorem isKeyOrder_nat (key : α → Nat) : IsKeyOrder fun a b => decide (key a < key b) where
  asymm h := by simp only [decide_eq_true_eq, decide_eq_false_iff_not] at *; omega
  trans h h' := by simp only [decide_eq_false_iff_not] at *; omega

theorem isKeyOrder_string (key : α → String) : IsKeyOrder fun a b => decide (key a < key b) where
  asymm h := by simpa using String.lt_asymm (by simpa using h)
  trans h h' := by
    simp only [decide_eq_false_iff_not, String.not_lt] at *
    exact String.le_trans h h'

theorem pairwise_insertBy (hless : IsKeyOrder less) (a : α) {xs : List α}
    (h : xs.Pairwise fun x y => less y x = false) :
    (insertBy less a xs).Pairwise fun x y => less y x = false := by
  induction xs with
  | nil => exact List.pairwise_singleton _ _
  | cons b rest ih =>
    obtain ⟨hb, hrest⟩ := List.pairwise_cons.1 h
    rw [insertBy]
    split
    · rename_i hba
      refine List.pairwise_cons.2 ⟨fun x hx => ?_, ih hrest⟩
      rcases List.mem_cons.1 ((insertBy_perm less a rest).mem_iff.1 hx) with rfl | hx
      · exact hless.asymm hba
      · exact hb x hx
    · rename_i hba
      have hba : less b a = false := by simpa using hba
      refine List.pairwise_cons.2 ⟨fun x hx => ?_, h⟩
      rcases List.mem_cons.1 hx with rfl | hx
      · exact hba
      · exact hless.trans hba (hb x hx)

/-- What has been sorted is in order. -/
theorem pairwise_sortBy (hless : IsKeyOrder less) (xs : List α) :
    (sortBy less xs).Pairwise fun x y => less y x = false := by
  induction xs with
  | nil => exact .nil
  | cons a rest ih => exact pairwise_insertBy hless a ih

/-- An element that none is less than comes to stand in front. -/
theorem insertBy_eq_cons {a : α} {xs : List α} (h : ∀ x ∈ xs, less x a = false) :
    insertBy less a xs = a :: xs := by
  cases xs with
  | nil => rfl
  | cons b rest => rw [insertBy, if_neg (by simp [h b (by simp)])]

theorem filter_insertBy (hless : IsKeyOrder less) (p : α → Bool) (a : α) {xs : List α}
    (h : xs.Pairwise fun x y => less y x = false) :
    (insertBy less a xs).filter p
      = if p a then insertBy less a (xs.filter p) else xs.filter p := by
  induction xs with
  | nil =>
    rw [insertBy, List.filter_cons]
    rfl
  | cons b rest ih =>
    obtain ⟨hb, hrest⟩ := List.pairwise_cons.1 h
    cases hba : less b a with
    | true =>
      rw [insertBy, if_pos hba, List.filter_cons, List.filter_cons, ih hrest]
      cases hpb : p b <;> cases hpa : p a <;> simp [insertBy, hba]
    | false =>
      -- from here on no element is less, whichever of them are left
      have hle : ∀ x ∈ b :: rest, less x a = false := by
        intro x hx
        rcases List.mem_cons.1 hx with rfl | hx
        · exact hba
        · exact hless.trans hba (hb x hx)
      rw [insertBy_eq_cons hle, insertBy_eq_cons fun x hx => hle x (List.mem_filter.1 hx).1,
        List.filter_cons]

/-- It is the same to sort a part of the elements and to take that part after sorting. -/
theorem filter_sortBy (hless : IsKeyOrder less) (p : α → Bool) (xs : List α) :
    (sortBy less xs).filter p = sortBy less (xs.filter p) := by
  induction xs with
  | nil => rfl
  | cons a rest ih =>
    rw [sortBy, filter_insertBy hless p a (pairwise_sortBy hless rest), ih, List.filter_cons]
    split
    · rw [sortBy]
    · rfl

theorem map_insertBy (f : β → α) (b : β) (xs : List β) :
    (insertBy (fun x y => less (f x) (f y)) b xs).map f = insertBy less (f b) (xs.map f) := by
  induction xs with
  | nil => rfl
  | cons x rest ih =>
    rw [insertBy, List.map_cons, insertBy]
    split
    · rw [List.map_cons, ih]
    · rfl

/-- It is the same to sort by a part of the elements and to sort those parts. -/
theorem map_sortBy (f : β → α) (xs : List β) :
    (sortBy (fun x y => less (f x) (f y)) xs).map f = sortBy less (xs.map f) := by
  induction xs with
  | nil => rfl
  | cons x rest ih => rw [sortBy, map_insertBy, ih]; rfl

/-- Elements of different keys have one order only, however they come. -/
theorem sortBy_eq_of_perm (hless : IsKeyOrder less) {xs ys : List α} (h : xs.Perm ys)
    (hys : ys.Pairwise fun x y => less x y = true) : sortBy less xs = ys := by
  have hperm := (sortBy_perm less xs).trans h
  have : Std.Symm fun a b => less b a = false → less a b = false → a = b :=
    ⟨fun a b heq hab hba => (heq hba hab).symm⟩
  have hsame : ∀ a ∈ ys, ∀ b ∈ ys, less b a = false → less a b = false → a = b :=
    List.Pairwise.forall_of_forall (fun _ _ _ _ => rfl)
      (hys.imp fun {a b} hlt _ (hge : less a b = false) => absurd (hlt.symm.trans hge) (by simp))
  exact hperm.eq_of_pairwise (fun a b ha hb => hsame a (hperm.mem_iff.1 ha) b hb)
    (pairwise_sortBy hless xs) (hys.imp hless.asymm)

end Marginalia
