import Marginalia.Header
import Marginalia.Proofs.LinePattern
import Marginalia.Proofs.Text.Lines

/-!
Carriage returns behind a definition line. A line loses its terminator in two ways, which differ by
carriage returns at its end; what the line says does not depend on them.
-/

namespace Marginalia

open Text Pattern Shape

/-! ### Shapes -/

section Shapes

variable {w : List Char} (hw : ∀ c ∈ w, c = '\r')

include hw

theorem halts_mark {c : Char} (hc : c ≠ '\r') : Halts w (mark c) :=
  halts_one fun d hd => by rw [hw d hd]; simpa using hc.symm

theorem passes_mark {c : Char} (hc : c ≠ '\r') : Passes w (mark c) :=
  passes_one fun d hd => by rw [hw d hd]; simpa using hc.symm

theorem passes_word {s : String} (hs : '\r' ∉ s.toList) : Passes w (word s) :=
  passes_text fun c hc hcw => hs (hw c hcw ▸ hc)

theorem isBlank_of_mem_returns : ∀ c ∈ w, isBlank c := fun c hc => by rw [hw c hc]; decide

theorem passes_gap : Passes w gap := passes_whole (isBlank_of_mem_returns hw)

/-- A shape that ends with a character. -/
theorem captures?_append_of_mark {parts : List Pattern} (n : Nat) {c : Char} (hc : c ≠ '\r')
    (hparts : parts.drop n = [mark c]) (hregular : (all (parts.take n)).isRegular = true)
    (line : Line) :
    (all parts).captures? (line ++ w) = ((all parts).captures? line).map (·.extend w) :=
  captures?_append n (mark c) [] [] hparts hregular (halts_mark hw hc)
    (by simpa using passes_mark hw hc) tolerates_some line

theorem pythonDefinition_append (line : Line) : pythonDefinition.captures? (line ++ w)
    = (pythonDefinition.captures? line).map (·.extend w) :=
  captures?_append_of_mark hw 10 (by decide) rfl (by decide) line

theorem javaMethod_append (line : Line) :
    javaMethod.captures? (line ++ w) = (javaMethod.captures? line).map (·.extend w) :=
  captures?_append_of_mark hw 12 (by decide) rfl (by decide) line

theorem scriptFunction_append (line : Line) :
    scriptFunction.captures? (line ++ w) = (scriptFunction.captures? line).map (·.extend w) :=
  captures?_append_of_mark hw 14 (by decide) rfl (by decide) line

theorem goFunction_append (line : Line) :
    goFunction.captures? (line ++ w) = (goFunction.captures? line).map (·.extend w) :=
  captures?_append_of_mark hw 8 (by decide) rfl (by decide) line

theorem scriptArrow_append (line : Line) :
    scriptArrow.captures? (line ++ w) = (scriptArrow.captures? line).map (·.extend w) :=
  captures?_append 15 (word "=>") [] [] rfl (by decide)
    (halts_text (by decide) fun c hc hcw => by
      exact absurd (hw c hcw ▸ hc) (by decide))
    (by simpa using passes_word hw (by decide)) tolerates_some line

theorem scriptMethod_append (line : Line) :
    scriptMethod.captures? (line ++ w) = (scriptMethod.captures? line).map (·.extend w) :=
  captures?_append 12 (mark '\x7b') [] [gap, atEnd] rfl (by decide)
    (halts_mark hw (by decide)) (by simpa using passes_mark hw (by decide))
    (tolerates_whole_atEnd (isBlank_of_mem_returns hw)) line

theorem cppFunction_append (line : Line) :
    cppFunction.captures? (line ++ w) = (cppFunction.captures? line).map (·.extend w) := by
  have hspecifier : ∀ s : String, '\r' ∉ s.toList → Passes w (optional (seq (word s) gap)) :=
    fun s hs => passes_optional (passes_seq (passes_word hw hs) (passes_gap hw))
  refine captures?_append 10 (mark ')')
    [gap, optional (seq (word "const") gap), optional (seq (word "noexcept") gap),
      optional (seq (word "override") gap), optional (seq (word "final") gap),
      optional (mark '\x7b')]
    [gap, atEnd] rfl (by decide) (halts_mark hw (by decide)) (fun q hq => ?_)
    (tolerates_whole_atEnd (isBlank_of_mem_returns hw)) line
  simp only [List.mem_cons, List.not_mem_nil, or_false] at hq
  rcases hq with rfl | rfl | rfl | rfl | rfl | rfl | rfl
  · exact passes_mark hw (by decide)
  · exact passes_gap hw
  · exact hspecifier _ (by decide)
  · exact hspecifier _ (by decide)
  · exact hspecifier _ (by decide)
  · exact hspecifier _ (by decide)
  · exact passes_optional (passes_mark hw (by decide))

theorem rustFunction_append (line : Line) :
    rustFunction.captures? (line ++ w) = (rustFunction.captures? line).map (·.extend w) :=
  captures?_append 14 (mark ')') [] [gap, either (anyOf ["->", "where", "\x7b"]) atEnd] rfl
    (by decide) (halts_mark hw (by decide)) (by simpa using passes_mark hw (by decide))
    (tolerates_whole_either_atEnd (isBlank_of_mem_returns hw)
      (passes_either (passes_word hw (by decide))
        (passes_either (passes_word hw (by decide)) (passes_word hw (by decide +kernel)))))
    line

/-- The shapes of a language do not see carriage returns at the end of a line. -/
theorem Header.ofShapes?_append (l : Language) (line : Line) :
    ofShapes? l (line ++ w) = ofShapes? l line := by
  have hgroups : ∀ (name params : Nat) (owner : Option String) (found : Captures),
      ofGroups (found.extend w) name params owner = ofGroups found name params owner := by
    intro name params owner found
    rw [ofGroups, ofGroups, Captures.get_extend, Captures.get_extend]
  have hmap : ∀ found : Option Captures, (found.map (·.extend w)).map (ofGroups · 1 2 none)
      = found.map (ofGroups · 1 2 none) := by
    intro found
    cases found <;> simp [hgroups]
  cases l with
  | python => rw [ofShapes?, ofShapes?, pythonDefinition_append hw, hmap]
  | java =>
    rw [ofShapes?, ofShapes?, javaMethod_append hw]
    cases javaMethod.captures? line with
    | none => rfl
    | some found => simp only [Option.map_some, Captures.get_extend, hgroups]
  | javascript | typescript =>
    simp only [ofShapes?, List.findSome?_cons, List.findSome?_nil, scriptFunction_append hw,
      scriptArrow_append hw, scriptMethod_append hw]
    cases scriptFunction.captures? line <;> cases scriptArrow.captures? line <;>
      cases scriptMethod.captures? line <;> simp [hgroups]
  | go =>
    rw [ofShapes?, ofShapes?, goFunction_append hw]
    cases goFunction.captures? line with
    | none => rfl
    | some found => simp only [Option.map_some, hgroups, Captures.get?_extend]
  | cpp =>
    rw [ofShapes?, ofShapes?, cppFunction_append hw]
    cases cppFunction.captures? line with
    | none => rfl
    | some found => simp only [Option.map_some, Captures.get_extend]
  | rust => rw [ofShapes?, ofShapes?, rustFunction_append hw, hmap]

/-! ### Lines that open nothing -/

theorem trimStart_append (line : Line) :
    trimStart (line ++ w) = trimStart line ∨ trimStart (line ++ w) = trimStart line ++ w := by
  have hblank : w.dropWhile isBlank = [] :=
    List.dropWhile_eq_nil_iff.2 (isBlank_of_mem_returns hw)
  rw [trimStart, trimStart, List.dropWhile_append]
  split
  · next h => exact .inl (by rw [hblank, List.isEmpty_iff.1 h])
  · exact .inr rfl

theorem prefix_append_returns {front : List Char} (hfront : '\r' ∉ front) (line : Line) :
    front.isPrefixOf (line ++ w) = front.isPrefixOf line := by
  rw [Bool.eq_iff_iff, List.isPrefixOf_iff_prefix, List.isPrefixOf_iff_prefix]
  refine ⟨fun h => ?_, fun h => h.trans (List.prefix_append line w)⟩
  rcases List.prefix_or_prefix_of_prefix h (List.prefix_append line w) with h' | ⟨more, rfl⟩
  · exact h'
  · cases more with
    | nil => simp
    | cons c more =>
      have hc : c ∈ w := ((List.prefix_append_right_inj line).1 h).subset (by simp)
      exact absurd (by simp [hw c hc]) hfront

theorem isCommentLine_append (l : Language) (line : Line) :
    isCommentLine l (line ++ w) = isCommentLine l line := by
  have hreturns : ∀ front : List Char, '\r' ∉ front →
      front.isPrefixOf (trimStart (line ++ w)) = front.isPrefixOf (trimStart line) := by
    intro front hfront
    rcases trimStart_append hw line with h | h
    · rw [h]
    · rw [h, prefix_append_returns hw hfront]
  unfold isCommentLine
  simp only [hreturns ['#'] (by decide), hreturns ['/', '/'] (by decide),
    hreturns ['/', '*'] (by decide), hreturns ['*'] (by decide), hreturns ['#', '['] (by decide)]

theorem opensNothing_append (l : Language) (line : Line) :
    opensNothing l (line ++ w) = opensNothing l line := by
  have hblank : allBlank (line ++ w) = allBlank line := by
    have hall : w.all isBlank = true := List.all_eq_true.2 (isBlank_of_mem_returns hw)
    rw [allBlank, allBlank, List.all_append, hall, Bool.and_true]
  have hend : isDeclaration (line ++ w) = isDeclaration line := by
    rw [isDeclaration, isDeclaration, trimEnd,
      dropTrailing_append_of_all (isBlank_of_mem_returns hw), ← trimEnd]
  rw [opensNothing, opensNothing, hblank, isCommentLine_append hw, hend]

theorem Header.ofLine?_append (l : Language) (line : Line) :
    ofLine? l (line ++ w) = ofLine? l line := by
  rw [ofLine?, ofLine?, opensNothing_append hw, ofShapes?_append hw]

end Shapes

/-- A line says the same whichever way it loses its terminator. -/
theorem Header.ofLine?_content {line : Line} (h : IsLine line) (l : Language) :
    ofLine? l (content line) = ofLine? l (withoutTerminator line) := by
  obtain ⟨returns, hline, hreturns⟩ := content_eq_withoutTerminator_append h
  rw [hline, ofLine?_append hreturns]

end Marginalia
