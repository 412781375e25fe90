import Mathlib.Algebra.GroupWithZero.Nat
import Mathlib.Tactic.ByContra
import Marginalia.Proofs.Segment

/-!
Comments between lines. A comment that is as deep as the line below it, and has no braces where
braces count, is an aside: segmentation walks past it. Asides above the first lines of units leave
every unit as it was, only further down. They could end a unit by their depth, but then the line
below ends it too; they count towards the look-ahead for a brace, but only of units whose braces
never balance.
-/

namespace Marginalia

open Text

/-- A comment above a line of the depth. -/
structure IsAside (l : Language) (depth : Nat) (line : Line) : Prop where
  comment : isCommentLine l line = true
  visible : allBlank line = false
  noBrace : l.usesBraces = true → bracesOf l line = []
  depth : indentWidth line = depth

/-- Lines, each with the asides above it. -/
abbrev Groups := List (List Line × Line)

namespace Groups

/-- The lines without their asides. -/
def plain (groups : Groups) : List Line := groups.map (·.2)

/-- The lines with their asides. -/
def full (groups : Groups) : List Line := groups.flatMap fun g => g.1 ++ [g.2]

/-- The number of asides among the first `n` groups. -/
def asideCount (n : Nat) (groups : Groups) : Nat := ((groups.take n).map (·.1.length)).sum

/-- Every aside is as deep as the line below it. -/
def HaveAsides (l : Language) (groups : Groups) : Prop :=
  ∀ g ∈ groups, ∀ x ∈ g.1, IsAside l (indentWidth g.2) x

/-- There are no asides among the first `n` groups. -/
def NoAsides (n : Nat) (groups : Groups) : Prop := ∀ g ∈ groups.take n, g.1 = []

theorem plain_cons (g : List Line × Line) (groups : Groups) :
    plain (g :: groups) = g.2 :: plain groups := rfl

theorem full_cons (g : List Line × Line) (groups : Groups) :
    full (g :: groups) = g.1 ++ g.2 :: full groups := by
  rw [full, List.flatMap_cons, List.append_assoc]
  rfl

theorem HaveAsides.tail {l : Language} {g : List Line × Line} {groups : Groups}
    (h : HaveAsides l (g :: groups)) : HaveAsides l groups :=
  fun g' hg' => h g' (List.mem_cons_of_mem g hg')

theorem NoAsides.tail {n : Nat} {g : List Line × Line} {groups : Groups}
    (h : NoAsides (n + 1) (g :: groups)) : NoAsides n groups :=
  fun g' hg' => h g' (by rw [List.take_succ_cons]; exact List.mem_cons_of_mem g hg')

theorem NoAsides.head {n : Nat} {g : List Line × Line} {groups : Groups}
    (h : NoAsides (n + 1) (g :: groups)) : g.1 = [] :=
  h g (by rw [List.take_succ_cons]; exact List.mem_cons_self)

/-- Where there are no asides, both texts start with the same lines. -/
theorem take_full {n : Nat} {groups : Groups} (h : NoAsides n groups) :
    (full groups).take n = (plain groups).take n := by
  induction groups generalizing n with
  | nil => rfl
  | cons g groups ih =>
    cases n with
    | zero => rfl
    | succ n =>
      rw [full_cons, plain_cons, h.head, List.nil_append, List.take_succ_cons, List.take_succ_cons,
        ih h.tail]

end Groups

open Groups

variable {l : Language}

/-! ### Units that end by their braces -/

/-- Braces that balance are found again wherever the same lines come first. -/
theorem bracedLength_congr {lookahead passed depth n : Nat} {lines lines' : List Line}
    (h : bracedLength l lookahead passed depth lines = some n)
    (htake : lines'.take (n - passed) = lines.take (n - passed)) :
    bracedLength l lookahead passed depth lines' = some n := by
  induction lines generalizing passed depth lines' with
  | nil => simp [bracedLength] at h
  | cons line rest ih =>
    have hpassed := passed_lt_bracedLength h
    obtain ⟨m, hm⟩ : ∃ m, n - passed = m + 1 := ⟨n - passed - 1, by omega⟩
    cases lines' with
    | nil => simp [hm] at htake
    | cons line' rest' =>
      rw [hm, List.take_succ_cons, List.take_succ_cons] at htake
      obtain ⟨rfl, hrest⟩ := List.cons.inj htake
      rw [bracedLength] at h ⊢
      split
      · next hfar => rw [if_pos hfar] at h; exact h
      · next hnear =>
        rw [if_neg hnear] at h
        cases hbalance : balance depth (bracesOf l line') with
        | closed => rw [hbalance] at h; exact h
        | stray => rw [hbalance] at h; exact h
        | pending depth' =>
          rw [hbalance] at h
          exact ih h (by rwa [show n - (passed + 1) = m by omega])

theorem bracedLength_asides {asides : List Line} (h : ∀ x ∈ asides, bracesOf l x = [])
    (lookahead passed depth : Nat) (rest : List Line) :
    bracedLength l lookahead passed depth (asides ++ rest) = none
      ∨ bracedLength l lookahead passed depth (asides ++ rest)
        = bracedLength l lookahead (passed + asides.length) depth rest := by
  induction asides generalizing passed with
  | nil => exact .inr rfl
  | cons x asides ih =>
    have ih := ih (fun y hy => h y (List.mem_cons_of_mem _ hy)) (passed + 1)
    rw [List.cons_append, bracedLength, h x (by simp)]
    split
    · exact .inl rfl
    · rw [List.length_cons, Nat.add_comm asides.length, ← Nat.add_assoc]
      exact ih

/-- Braces that do not balance in time do not so with asides between the lines. -/
theorem bracedLength_full_eq_none {lookahead passed passed' depth : Nat} {groups : Groups}
    (hasides : HaveAsides l groups) (hl : l.usesBraces = true) (hpassed : passed ≤ passed')
    (h : bracedLength l lookahead passed depth (plain groups) = none) :
    bracedLength l lookahead passed' depth (full groups) = none := by
  induction groups generalizing passed passed' depth with
  | nil => rfl
  | cons g groups ih =>
    rw [full_cons]
    have hbraces : ∀ x ∈ g.1, bracesOf l x = [] := fun x hx => (hasides g (by simp) x hx).noBrace hl
    rcases bracedLength_asides hbraces lookahead passed' depth (g.2 :: full groups) with
      hnone | hskip
    · exact hnone
    · rw [hskip]
      rw [plain_cons, bracedLength] at h
      rw [bracedLength]
      split
      · rfl
      · next hnear =>
        have hnear' : ¬ (decide (depth = 0) && decide (passed > lookahead)) = true := by
          simp only [Bool.and_eq_true, decide_eq_true_eq] at hnear ⊢
          omega
        rw [if_neg hnear'] at h
        cases hbalance : balance depth (bracesOf l g.2) with
        | closed => rw [hbalance] at h; exact absurd h (by simp)
        | stray => rfl
        | pending depth' =>
          rw [hbalance] at h
          exact ih hasides.tail (by omega) h

/-! ### Units that end by their depth -/

theorem indentedLength_full {depth : Nat} {groups : Groups} (hasides : HaveAsides l groups)
    (h : NoAsides (indentedLength depth (plain groups)) groups) :
    indentedLength depth (full groups) = indentedLength depth (plain groups) := by
  induction groups with
  | nil => rfl
  | cons g groups ih =>
    obtain ⟨asides, line⟩ := g
    cases hline : allBlank line || decide (indentWidth line > depth) with
    | true =>
      have hcons : ∀ rest, indentedLength depth (line :: rest) = indentedLength depth rest + 1 := by
        intro rest
        rw [indentedLength, List.takeWhile_cons, if_pos hline, List.length_cons]
        rfl
      rw [plain_cons, hcons] at h ⊢
      have hnone : asides = [] := h.head
      rw [full_cons, hnone, List.nil_append, hcons, ih hasides.tail h.tail]
    | false =>
      -- the first aside, if there is one, ends the unit as the line below it does
      have hzero : ∀ {x : Line} {rest : List Line},
          (allBlank x || decide (indentWidth x > depth)) = false →
          indentedLength depth (x :: rest) = 0 := by
        intro x rest hx
        rw [indentedLength, List.takeWhile_cons, if_neg (by rw [hx]; decide), List.length_nil]
      rw [plain_cons, full_cons, hzero hline]
      cases asides with
      | nil => exact hzero hline
      | cons x asides =>
        have hx := hasides (x :: asides, line) (by simp) x (by simp)
        rw [List.cons_append, hzero]
        rw [Bool.or_eq_false_iff] at hline
        rw [hx.visible, hx.depth, hline.2]
        rfl

/-! ### Units among asides -/

variable {o : SegmentOptions} {file : String}

/-- A unit with no asides in it is as long as without the asides behind it. -/
theorem unitLength_full {line : Line} {groups : Groups} (hasides : HaveAsides l groups)
    (h : NoAsides (unitLength o l line (plain groups) - 1) groups) :
    unitLength o l line (full groups) = unitLength o l line (plain groups) := by
  have hindented : bracedLength l o.braceLookahead 0 0 (line :: plain groups) = none
      ∨ ¬ (o.braceMatching && l.usesBraces) = true →
      indentedLength (indentWidth line) (full groups)
        = indentedLength (indentWidth line) (plain groups) := by
    intro hfails
    refine indentedLength_full hasides ?_
    rcases hfails with hnone | hoff
    · simpa [unitLength, hnone] using h
    · simpa [unitLength, hoff] using h
  by_cases hbraced : (o.braceMatching && l.usesBraces) = true
  · cases hlength : bracedLength l o.braceLookahead 0 0 (line :: plain groups) with
    | some n =>
      have hlong : unitLength o l line (plain groups) = n := by
        rw [unitLength, if_pos hbraced, hlength, Option.getD_some]
      obtain ⟨m, rfl⟩ : ∃ m, n = m + 1 := ⟨n - 1, by have := passed_lt_bracedLength hlength; omega⟩
      rw [hlong, Nat.add_sub_cancel] at h
      have htake : (line :: full groups).take (m + 1 - 0)
          = (line :: plain groups).take (m + 1 - 0) := by
        rw [Nat.sub_zero, List.take_succ_cons, List.take_succ_cons, take_full h]
      rw [hlong, unitLength, if_pos hbraced, bracedLength_congr hlength htake, Option.getD_some]
    | none =>
      have hline : HaveAsides l (([], line) :: groups) := by
        intro g hg
        rcases List.mem_cons.1 hg with rfl | hg
        · simp
        · exact hasides g hg
      have hnone : bracedLength l o.braceLookahead 0 0 (line :: full groups) = none := by
        have hfull := bracedLength_full_eq_none hline (Bool.and_eq_true_iff.1 hbraced).2
          (Nat.le_refl 0) hlength
        rwa [full_cons, List.nil_append] at hfull
      rw [unitLength, unitLength, if_pos hbraced, if_pos hbraced, hlength, hnone,
        hindented (.inl hlength)]
  · rw [unitLength, unitLength, if_neg hbraced, if_neg hbraced, hindented (.inr hbraced)]

/-- Asides are walked past. -/
theorem unitsFrom_asides {asides : List Line} (h : ∀ x ∈ asides, isCommentLine l x = true)
    (scopes : List OpenScope) (index : Nat) (rest : List Line) :
    unitsFrom o file l scopes index 0 (asides ++ rest)
      = unitsFrom o file l scopes (index + asides.length) 0 rest := by
  induction asides generalizing index with
  | nil => rfl
  | cons x asides ih =>
    have henter : enterLine l scopes x = (scopes, none) := by
      rw [enterLine, h x (by simp), Bool.or_true, if_pos rfl]
    rw [List.cons_append, unitsFrom_cons, henter]
    simp only
    rw [ih (fun y hy => h y (List.mem_cons_of_mem _ hy)), List.length_cons, Nat.add_assoc,
      Nat.add_comm 1]

theorem asideCount_succ_cons (n : Nat) (g : List Line × Line) (groups : Groups) :
    asideCount (n + 1) (g :: groups) = g.1.length + asideCount n groups := by
  rw [asideCount, List.take_succ_cons, List.map_cons, List.sum_cons, asideCount]

/-- Asides stand above first lines of units only, among lines that are numbered from `index` on. -/
def Groups.AsidesAbove (groups : Groups) (units : List CodeUnit) (index : Nat) : Prop :=
  ∀ j g, groups[j]? = some g → g.1 ≠ [] → ∃ u ∈ units, u.range.start = index + j

theorem Groups.AsidesAbove.tail {g : List Line × Line} {groups : Groups}
    {units units' : List CodeUnit} {index : Nat}
    (h : AsidesAbove (g :: groups) units index)
    (hunits : ∀ u ∈ units, u.range.start ≠ index → u ∈ units') :
    AsidesAbove groups units' (index + 1) := by
  intro j g hg hne
  obtain ⟨u, hu, hstart⟩ := h (j + 1) g (by simpa using hg) hne
  exact ⟨u, hunits u hu (by omega), by omega⟩

/-- Lines below which the units start that start no earlier have no asides above them. -/
theorem Groups.AsidesAbove.noAsides {groups : Groups} {units : List CodeUnit} {index n : Nat}
    (h : AsidesAbove groups units index) (hunits : ∀ u ∈ units, index + n ≤ u.range.start) :
    NoAsides n groups := by
  intro g hg
  obtain ⟨j, hj⟩ := List.getElem?_of_mem hg
  have hlt : j < n := by
    have hlt := (List.getElem?_eq_some_iff.1 hj).1
    rw [List.length_take] at hlt
    omega
  rw [List.getElem?_take_of_lt hlt] at hj
  by_contra hne
  obtain ⟨u, hu, hstart⟩ := h j g hj hne
  have hbehind := hunits u hu
  omega

/-- The units of lines among asides are those of the lines, each moved down by the asides above it,
as long as asides stand only above the first lines of units. The induction follows the walk along
the lines: `k` asides have been passed before. -/
theorem unitsFrom_full {groups : Groups} (hasides : HaveAsides l groups) (scopes : List OpenScope)
    (index covered k : Nat)
    (habove : groups.AsidesAbove (unitsFrom o file l scopes index covered (plain groups)) index) :
    unitsFrom o file l scopes (index + k) covered (full groups)
      = (unitsFrom o file l scopes index covered (plain groups)).map fun u =>
        u.movedDown (k + asideCount (u.range.start + 1 - index) groups) := by
  induction groups generalizing scopes index covered k with
  | nil => rfl
  | cons g groups ih =>
    obtain ⟨asides, line⟩ := g
    -- what the rest of the walk gives, once the units behind this line are known
    have hbehind : ∀ (scopes' : List OpenScope) (covered' : Nat),
        (∀ u ∈ unitsFrom o file l scopes index covered (plain ((asides, line) :: groups)),
          u.range.start ≠ index →
          u ∈ unitsFrom o file l scopes' (index + 1) covered' (plain groups)) →
        unitsFrom o file l scopes' (index + 1 + (k + asides.length)) covered' (full groups)
          = (unitsFrom o file l scopes' (index + 1) covered' (plain groups)).map fun u =>
            u.movedDown
              (k + asideCount (u.range.start + 1 - index) ((asides, line) :: groups)) := by
      intro scopes' covered' hunits
      rw [ih hasides.tail _ _ _ _ (habove.tail hunits)]
      refine List.map_congr_left fun u hu => ?_
      have hstart := le_start_of_mem_unitsFrom u hu
      rw [show u.range.start + 1 - index = (u.range.start + 1 - (index + 1)) + 1 by omega,
        asideCount_succ_cons, Nat.add_assoc]
    cases covered with
    | succ covered =>
      have hfree : NoAsides 1 ((asides, line) :: groups) := habove.noAsides fun u hu => by
        have hstart := le_start_of_mem_unitsFrom u hu
        omega
      obtain rfl : asides = [] := hfree.head
      have hrest := hbehind scopes covered fun u hu _ => hu
      rw [List.length_nil, Nat.add_zero, Nat.add_right_comm] at hrest
      rw [full_cons, plain_cons, List.nil_append, unitsFrom, unitsFrom]
      exact hrest
    | zero =>
      have hcomments : ∀ x ∈ asides, isCommentLine l x = true := fun x hx =>
        (hasides (asides, line) (by simp) x hx).comment
      have hindex : index + k + asides.length + 1 = index + 1 + (k + asides.length) := by omega
      rw [full_cons, plain_cons, unitsFrom_asides hcomments, unitsFrom_cons, unitsFrom_cons]
      rw [plain_cons, unitsFrom_cons] at habove hbehind
      cases henter : enterLine l scopes line with
      | mk scopes' opened =>
        rw [henter] at habove hbehind
        cases opened with
        | none =>
          simp only at hbehind ⊢
          rw [hindex]
          exact hbehind scopes' 0 fun u hu _ => hu
        | some opened =>
          obtain ⟨h, scope⟩ := opened
          simp only at habove hbehind ⊢
          have hfirst : ∀ u ∈ (unitAt? o file l h scope index
              ((line :: plain groups).take (unitLength o l line (plain groups)))).toList,
              u.range.start = index := fun u hu => by
            rw [(unitAt?_eq_some (Option.mem_toList.1 hu)).2]
          have hrest : ∀ {units : List CodeUnit}, ∀ u ∈ (unitAt? o file l h scope index
              ((line :: plain groups).take (unitLength o l line (plain groups)))).toList ++ units,
              u.range.start ≠ index → u ∈ units := fun u hu hne =>
            (List.mem_append.1 hu).resolve_left fun hu => hne (hfirst u hu)
          -- the next unit starts behind this one
          have hfree : NoAsides (unitLength o l line (plain groups) - 1) groups :=
            (habove.tail hrest).noAsides le_start_of_mem_unitsFrom
          have htake : (line :: full groups).take (unitLength o l line (plain groups))
              = (line :: plain groups).take (unitLength o l line (plain groups)) := by
            obtain ⟨m, hm⟩ := Nat.exists_eq_succ_of_ne_zero
              (Nat.ne_of_gt (unitLength_pos o l line (plain groups)))
            rw [hm, Nat.succ_sub_one] at hfree
            rw [hm, List.take_succ_cons, List.take_succ_cons, take_full hfree]
          rw [unitLength_full hasides.tail hfree, htake, List.map_append, hindex, Nat.add_assoc,
            unitAt?_add]
          congr 1
          · rw [Option.toList_map]
            refine List.map_congr_left fun u hu => ?_
            rw [hfirst u hu, Nat.add_sub_cancel_left, asideCount_succ_cons]
            rfl
          · exact hbehind scopes' _ hrest

end Marginalia
