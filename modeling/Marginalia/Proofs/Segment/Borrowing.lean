import Mathlib.Data.Nat.Find
import Marginalia.Proofs.Segment.Braces
import Marginalia.Proofs.Segment.Coverage

/-!
Whose braces end a unit. The search for them starts at the definition line and takes the first that
opens, on that line or within the look-ahead; whether another definition stands in between it does
not ask. So the braces belong to the last definition line above them. Where that is not the line the
unit starts on, the unit has no braces of its own, and it ends where the later definition ends.
-/

namespace Marginalia

open Text

variable {o : SegmentOptions} {file : String} {l : Language} {lines : List Line}
  {start stop i j : Nat}

/-- The line that is looked at starts a definition. -/
def isDefinition (l : Language) (lines : List Line) (i : Nat) : Bool :=
  (Header.ofLine? l (lines.getD i [])).isSome

/-- No brace of the code stands on the lines from `start` up to `i`. -/
def NoBraceBetween (l : Language) (lines : List Line) (start i : Nat) : Prop :=
  ∀ k, start ≤ k → k < i → bracesOf l (lines.getD k []) = []

/-- The first brace from line `start` on stands on line `i` and opens. -/
structure OpensFirst (l : Language) (lines : List Line) (start i : Nat) : Prop where
  start_le : start ≤ i
  opens : (bracesOf l (lines.getD i [])).head? = some .opening
  none_above : NoBraceBetween l lines start i

/-- The last definition line from `start` up to line `i`. -/
structure IsLastDefinition (l : Language) (lines : List Line) (start i d : Nat) : Prop where
  start_le : start ≤ d
  le : d ≤ i
  defines : isDefinition l lines d = true
  none_behind : ∀ k, d < k → k ≤ i → isDefinition l lines k = false

theorem exists_isLastDefinition (hstart : isDefinition l lines start = true) (hle : start ≤ i) :
    ∃ d, IsLastDefinition l lines start i d := by
  refine ⟨Nat.findGreatest (isDefinition l lines · = true) i, ?_, Nat.findGreatest_le i, ?_, ?_⟩
  · exact Nat.le_findGreatest hle hstart
  · exact Nat.findGreatest_spec (P := (isDefinition l lines · = true)) hle hstart
  · exact fun k hk hki => Bool.eq_false_iff.2 (Nat.findGreatest_is_greatest hk hki)

/-! ### Lines without braces -/

/-- The first brace of lines stands on the first line that has one. -/
theorem first_of_head?_numberedBraces {b : Nat × Brace}
    (h : (numberedBraces l start lines).head? = some b) :
    ∃ k, b.1 = start + k ∧ (bracesOf l (lines.getD k [])).head? = some b.2
      ∧ NoBraceBetween l lines 0 k := by
  induction lines generalizing start with
  | nil => cases h
  | cons line rest ih =>
    rw [numberedBraces_cons] at h
    cases hline : bracesOf l line with
    | nil =>
      rw [hline, List.map_nil, List.nil_append] at h
      obtain ⟨k, hk, hbrace, hnone⟩ := ih h
      refine ⟨k + 1, by omega, hbrace, fun m _ hm => ?_⟩
      cases m with
      | zero => exact hline
      | succ m => exact hnone m (Nat.zero_le m) (Nat.lt_of_succ_lt_succ hm)
    | cons first more =>
      rw [hline] at h
      obtain rfl := Option.some.inj h
      exact ⟨0, rfl, congrArg List.head? hline, fun m _ hm => absurd hm (Nat.not_lt_zero m)⟩

/-- Lines without a brace do not change the braces behind them. -/
theorem numberedBraces_drop_of_noBrace (hle : start ≤ i) (h : NoBraceBetween l lines start i) :
    numberedBraces l start (lines.drop start) = numberedBraces l i (lines.drop i) := by
  induction i, hle using Nat.le_induction with
  | base => rfl
  | succ i hle ih =>
    rw [ih fun k hk hki => h k hk (Nat.lt_succ_of_lt hki)]
    rcases Nat.lt_or_ge i lines.length with hi | hi
    · have hline : bracesOf l lines[i] = [] := by
        rw [← List.getD_eq_getElem _ [] hi]
        exact h i hle (Nat.lt_succ_self i)
      rw [List.drop_eq_getElem_cons hi, numberedBraces_cons, hline]
      rfl
    · rw [List.drop_eq_nil_of_le hi, List.drop_eq_nil_of_le (Nat.le_succ_of_le hi)]
      rfl

/-- Braces that end behind lines without one end there as well when these are left out. -/
theorem braceEnd?_of_noBrace (hle : start ≤ i) (h : NoBraceBetween l lines start i)
    (hstop : braceEnd? o l lines start = some stop) : braceEnd? o l lines i = some stop := by
  obtain ⟨⟨j, hhead, hj⟩, hclosed⟩ := braceEnd?_eq_some_iff.1 hstop
  rw [numberedBraces_drop_of_noBrace hle h] at hhead hclosed
  exact braceEnd?_eq_some_iff.2 ⟨⟨j, hhead, by omega⟩, hclosed⟩

/-- Where braces end something, the first of them opens within the look-ahead. -/
theorem exists_opensFirst (hstop : braceEnd? o l lines start = some stop) :
    ∃ j, OpensFirst l lines start j ∧ j ≤ start + o.braceLookahead := by
  obtain ⟨⟨j, hhead, hj⟩, -⟩ := braceEnd?_eq_some_iff.1 hstop
  obtain ⟨k, rfl, hopens, hnone⟩ := first_of_head?_numberedBraces hhead
  have hget (m : Nat) : (lines.drop start).getD m [] = lines.getD (start + m) [] := by
    rw [List.getD_eq_getElem?_getD, List.getElem?_drop, List.getD_eq_getElem?_getD]
  refine ⟨start + k, ⟨Nat.le_add_right start k, hget k ▸ hopens, fun m hm hmk => ?_⟩, hj⟩
  obtain ⟨m, rfl⟩ := Nat.exists_eq_add_of_le hm
  exact hget m ▸ hnone m (Nat.zero_le m) (by omega)

/-- What ends by braces ends behind the line of the first of them. -/
theorem lt_of_braceEnd? (hstop : braceEnd? o l lines start = some stop) : start < stop := by
  obtain ⟨n, hn, rfl⟩ := Option.map_eq_some_iff.1 hstop
  have := passed_lt_bracedLength hn
  omega

/-! ### The units of a text -/

/-- A file without a visible name has no units. -/
theorem isBlankString_of_mem_segment {text : String} {u : CodeUnit}
    (hu : u ∈ segment o text file l) : isBlankString file = false := by
  obtain ⟨h, scope, start, body, hunit⟩ := exists_unitAt?_of_mem_segment hu
  rw [unitAt?_eq] at hunit
  split at hunit
  · cases hunit
  · next hvisible =>
    simp only [Bool.or_eq_true, not_or, Bool.not_eq_true] at hvisible
    exact hvisible.1.1

/-- A unit starts on a definition line and ends where the search for its end does. -/
theorem stop_of_mem_segment {text : String} {u : CodeUnit} (hu : u ∈ segment o text file l) :
    u.range.start < (linesOf text).length
      ∧ isDefinition l (linesOf text) u.range.start = true
      ∧ u.range.stop = unitEnd o l (linesOf text) u.range.start := by
  obtain ⟨k, line, h, -, hstart, hline, hh, -⟩ := start_of_mem_unitsFrom hu
  obtain rfl : u.range.start = k := by omega
  obtain ⟨hlt, hget⟩ := List.getElem?_eq_some_iff.1 hline
  have hgetD : (linesOf text).getD u.range.start [] = line := by
    rw [List.getD_eq_getElem _ _ hlt, hget]
  obtain ⟨_, -, -, hunit⟩ := (mem_segment_iff (isBlankString_of_mem_segment hu) text
    (isRead_start hu) hline u).1 ⟨hu, rfl⟩
  refine ⟨hlt, by rw [isDefinition, hgetD, hh]; rfl, ?_⟩
  rw [unitEnd, hgetD, (unitAt?_eq_some hunit).2, List.drop_eq_getElem_cons hlt, hget,
    length_take_unitLength]

/-- No unit starts inside of another one. -/
theorem start_le_or_stop_le {text : String} {u v : CodeUnit} (hu : u ∈ segment o text file l)
    (hv : v ∈ segment o text file l) :
    v.range.start ≤ u.range.start ∨ u.range.stop ≤ v.range.start := by
  have hread := List.all_eq_true.1 (isRead_start hv) u hu
  simpa using hread

/-- The last definition line is not the first if another one comes before any brace. -/
theorem IsLastDefinition.start_lt_iff {d : Nat} (hd : IsLastDefinition l lines start i d)
    (hfirst : OpensFirst l lines start i) :
    start < d
      ↔ ∃ k, start < k ∧ isDefinition l lines k = true ∧ NoBraceBetween l lines start k := by
  constructor
  · intro hlt
    exact ⟨d, hlt, hd.defines, fun k hk hkd => hfirst.none_above k hk (hkd.trans_le hd.le)⟩
  · rintro ⟨k, hlt, hdefinition, hnone⟩
    have hki : k ≤ i := Nat.le_of_not_lt fun hik => by
      have hopens := hfirst.opens
      rw [hnone i hfirst.start_le hik] at hopens
      cases hopens
    have hkd : k ≤ d := Nat.le_of_not_lt fun hdk =>
      Bool.false_ne_true ((hd.none_behind k hdk hki).symm.trans hdefinition)
    exact Nat.lt_of_lt_of_le hlt hkd

/-- The braces that end a unit are those of the last definition line above them. The first of them
opens within the look-ahead; the unit ends where a unit that started on that definition line would,
and no other unit starts in between. The braces are the unit's own unless another definition stands
behind its first line with no brace of the code in between; then the unit takes in the whole
definition that they belong to. -/
theorem braces_of_last_definition (o : SegmentOptions) (l : Language)
    (hbraces : l.usesBraces = true) (ho : o.braceMatching = true) (text file : String)
    (u : CodeUnit) (hu : u ∈ segment o text file l) (stop : Nat)
    (hstop : braceEnd? o l (linesOf text) u.range.start = some stop) :
    u.range.stop = stop
      ∧ ∃ i d, OpensFirst l (linesOf text) u.range.start i
        ∧ i ≤ u.range.start + o.braceLookahead ∧ i < stop
        ∧ IsLastDefinition l (linesOf text) u.range.start i d
        ∧ (u.range.start < d ↔ ∃ k, u.range.start < k ∧ isDefinition l (linesOf text) k = true
          ∧ NoBraceBetween l (linesOf text) u.range.start k)
        ∧ braceEnd? o l (linesOf text) d = some stop
        ∧ ∀ v ∈ segment o text file l, v.range.start ≤ u.range.start ∨ stop ≤ v.range.start := by
  obtain ⟨hlt, hdefinition, hend⟩ := stop_of_mem_segment hu
  have hunit : u.range.stop = stop := by
    rw [hend, unitEnd_eq hbraces ho hlt, hstop]
    rfl
  obtain ⟨i, hfirst, hnear⟩ := exists_opensFirst hstop
  obtain ⟨d, hd⟩ := exists_isLastDefinition hdefinition hfirst.start_le
  have hwithin : braceEnd? o l (linesOf text) i = some stop :=
    braceEnd?_of_noBrace hfirst.start_le hfirst.none_above hstop
  have hnone : NoBraceBetween l (linesOf text) u.range.start d :=
    fun k hk hkd => hfirst.none_above k hk (hkd.trans_le hd.le)
  refine ⟨hunit, i, d, hfirst, hnear, lt_of_braceEnd? hwithin, hd, hd.start_lt_iff hfirst,
    braceEnd?_of_noBrace hd.start_le hnone hstop, fun v hv => ?_⟩
  exact hunit ▸ start_le_or_stop_le hu hv

/-- An arrow function without braces, and a function behind it. -/
def arrowText : String :=
  "const f = (x) => x + 1\nfunction g(y) \x7b\n  return y;\n\x7d\n"

theorem exists_arrowUnit : ∃ u ∈ segment {} arrowText "app.js" .javascript, u.range = ⟨0, 4⟩ := by
  have hranges : (segment {} arrowText "app.js" .javascript).map (·.range) = [⟨0, 4⟩] := by
    decide +kernel
  exact List.mem_map.1 (hranges ▸ List.mem_singleton_self _)

/-- The arrow function takes in the function behind it: they end with the same brace. -/
theorem braces_of_last_definition_arrow :
    ∃ u ∈ segment {} arrowText "app.js" .javascript, u.range.stop = 4
      ∧ ∃ d, u.range.start < d ∧ braceEnd? {} .javascript (linesOf arrowText) d = some 4 := by
  obtain ⟨u, hu, hrange⟩ := exists_arrowUnit
  obtain ⟨hstop, i, d, -, -, -, -, hlater, hend, -⟩ :=
    braces_of_last_definition {} .javascript rfl rfl arrowText "app.js" u hu 4
      (by rw [hrange]; decide +kernel)
  refine ⟨u, hu, hstop, d, hlater.2 ⟨1, ?_, by decide +kernel, fun k _ hk => ?_⟩, hend⟩
  · rw [hrange]
    exact Nat.one_pos
  · obtain rfl : k = 0 := Nat.lt_one_iff.1 hk
    decide +kernel

/-- Not every unit that ends by braces has them to itself: a definition can stand on the line where
they open. -/
theorem arrow_borrows_brace :
    ∃ u ∈ segment {} arrowText "app.js" .javascript,
      braceEnd? {} .javascript (linesOf arrowText) u.range.start = some u.range.stop
        ∧ ∃ i k, OpensFirst .javascript (linesOf arrowText) u.range.start i
          ∧ u.range.start < k ∧ k ≤ i ∧ isDefinition .javascript (linesOf arrowText) k = true := by
  obtain ⟨u, hu, hrange⟩ := exists_arrowUnit
  refine ⟨u, hu, ?_⟩
  rw [hrange]
  refine ⟨by decide +kernel, 1, 1, ⟨by decide, by decide +kernel, fun k _ hk => ?_⟩, by decide,
    by decide, by decide +kernel⟩
  obtain rfl : k = 0 := Nat.lt_one_iff.1 hk
  decide +kernel

end Marginalia
