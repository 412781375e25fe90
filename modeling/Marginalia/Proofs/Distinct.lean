import Mathlib.Data.List.Nodup

/-!
Lists without repetitions. Where the later ones of equal elements are dropped, each that is left
stands for the first of its equals, and the order is the order of these.
-/

namespace Marginalia

variable {α β : Type}

/-- Induction along the elements that are left: behind each one, all those of its value are gone. -/
theorem induction_on_eraseDups [DecidableEq β] (f : α → β) {motive : List α → Prop}
    (nil : motive []) (cons : ∀ x l, motive (l.filter fun y => !f y == f x) → motive (x :: l))
    (l : List α) : motive l := by
  induction hn : l.length using Nat.strongRecOn generalizing l with
  | _ n ih =>
    cases l with
    | nil => exact nil
    | cons x l =>
      subst hn
      exact cons x l (ih _ (Nat.lt_succ_of_le (List.length_filter_le _ l)) _ rfl)

theorem nodup_eraseDups [DecidableEq α] (l : List α) : l.eraseDups.Nodup := by
  induction l using induction_on_eraseDups (id : α → α) with
  | nil => exact List.nodup_nil
  | cons x l ih =>
    rw [List.eraseDups_cons, List.nodup_cons, List.mem_eraseDups]
    exact ⟨by simp, ih⟩

theorem eraseDups_concat [DecidableEq α] (l : List α) (x : α) :
    (l ++ [x]).eraseDups = l.eraseDups ++ if x ∈ l then [] else [x] := by
  rw [List.eraseDups_append, List.removeAll, List.filter_singleton]
  by_cases hx : x ∈ l <;> simp [hx, List.eraseDups_cons]

/-- Where the values along an ordered list are thinned out, each one stands for the first element
that has it, and the values come in the order of these elements. -/
theorem pairwise_eraseDups_map [DecidableEq β] {r : α → α → Prop} {f : α → β} {l : List α}
    (h : l.Pairwise r) :
    (l.map f).eraseDups.Pairwise fun v w => ∃ a ∈ l, f a = v ∧ ∀ b ∈ l, f b = w → r a b := by
  induction l using induction_on_eraseDups f with
  | nil => exact .nil
  | cons x l ih =>
    obtain ⟨hfirst, hrest⟩ := List.pairwise_cons.1 h
    -- what is left behind the first value does not have it
    have hleft : ∀ {w}, w ∈ ((l.filter fun y => !f y == f x).map f).eraseDups →
        ∀ {b}, b ∈ x :: l → f b = w → b ∈ l ∧ (!f b == f x) = true := by
      intro w hw b hb hbw
      rw [List.mem_eraseDups] at hw
      obtain ⟨c, hc, hcw⟩ := List.mem_map.1 hw
      have hne := (List.mem_filter.1 hc).2
      rw [hcw, ← hbw] at hne
      refine ⟨(List.mem_cons.1 hb).resolve_left ?_, hne⟩
      rintro rfl
      simp at hne
    rw [List.map_cons, List.eraseDups_cons, List.filter_map, List.pairwise_cons]
    refine ⟨fun w hw => ⟨x, List.mem_cons_self, rfl, fun b hb hbw => ?_⟩, ?_⟩
    · exact hfirst b (hleft hw hb hbw).1
    · refine (ih (hrest.filter _)).imp_of_mem fun {v w} _ hw hvw => ?_
      obtain ⟨a, ha, hav, hleast⟩ := hvw
      refine ⟨a, List.mem_cons_of_mem _ (List.mem_filter.1 ha).1, hav, fun b hb hbw => ?_⟩
      exact hleast b (List.mem_filter.2 (hleft hw hb hbw)) hbw

end Marginalia
