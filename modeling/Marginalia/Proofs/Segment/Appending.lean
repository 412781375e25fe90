import Marginalia.Proofs.Segment.Braces
import Marginalia.Proofs.Segment.Coverage

/-!
Python texts one behind the other. A visible line at the margin that is no comment ends every unit
and leaves every scope above it, so the walk stands there as at the beginning of a text. What such a
line starts is cut as if it stood alone, and the units above do not depend on it.
-/

namespace Marginalia

open Text

variable {o : SegmentOptions} {file : String} {l : Language}

/-- A visible line without indentation that is no comment. -/
structure IsAtMargin (line : Line) : Prop where
  visible : allBlank line = false
  comment : isCommentLine .python line = false
  depth : indentWidth line = 0

/-- The first line of the text stands at the margin. -/
def StartsAtMargin (text : String) : Prop := ∃ line ∈ (linesOf text).head?, IsAtMargin line

/-- The last line of the text, if it has one, is terminated. -/
def EndsWithLine (text : String) : Prop := ∀ c ∈ text.toList.getLast?, c = '\n'

/-! ### Lines one behind the other -/

/-- Behind a line feed a text is cut as if it stood alone. -/
theorem splitLines_append {front : List Char} (hfront : ∀ c ∈ front.getLast?, c = '\n')
    (text : List Char) : splitLines (front ++ text) = splitLines front ++ splitLines text := by
  induction front with
  | nil => rfl
  | cons c front ih =>
    by_cases hc : c = '\n'
    · subst hc
      have hrest : ∀ d ∈ front.getLast?, d = '\n' := by
        intro d hd
        exact hfront d (by rw [List.getLast?_cons, hd]; rfl)
      rw [List.cons_append, splitLines_newline, splitLines_newline, ih hrest, List.cons_append]
    · cases front with
      | nil => exact absurd (hfront c rfl) hc
      | cons d front =>
        rw [List.getLast?_cons_cons] at hfront
        cases hlines : splitLines (d :: front) with
        | nil => exact absurd (splitLines_eq_nil_iff.1 hlines) (List.cons_ne_nil d front)
        | cons line lines =>
          have hrest : splitLines (d :: front ++ text) = line :: (lines ++ splitLines text) := by
            rw [ih hfront, hlines]
            rfl
          rw [List.cons_append, splitLines_of_ne hc hrest, splitLines_of_ne hc hlines]
          rfl

theorem linesOf_append_text {front : String} (hfront : EndsWithLine front) (text : String) :
    linesOf (front ++ text) = linesOf front ++ linesOf text := by
  rw [linesOf, contents, String.toList_append, splitLines_append hfront, List.map_append]
  rfl

/-! ### The same lines further down -/

/-- The same lines further down have the same units further down. -/
theorem unitsFrom_add (scopes : List OpenScope) (index covered k : Nat) (lines : List Line) :
    unitsFrom o file l scopes (index + k) covered lines
      = (unitsFrom o file l scopes index covered lines).map (·.movedDown k) := by
  induction lines generalizing scopes index covered with
  | nil => rfl
  | cons line rest ih =>
    cases covered with
    | succ covered =>
      rw [unitsFrom, unitsFrom, Nat.add_right_comm]
      exact ih scopes (index + 1) covered
    | zero =>
      rw [unitsFrom_cons, unitsFrom_cons, Nat.add_right_comm]
      rcases enterLine l scopes line with ⟨scopes', _ | ⟨h, scope⟩⟩
      · exact ih scopes' (index + 1) 0
      · simp only [List.map_append, unitAt?_add, Option.toList_map, ih]

/-! ### The line at the margin -/

/-- Nothing reaches past a line at the margin. -/
theorem indentedLength_append_margin {line : Line} (hline : IsAtMargin line) (depth : Nat)
    (front rest : List Line) :
    indentedLength depth (front ++ line :: rest) = indentedLength depth front := by
  induction front with
  | nil =>
    have hend : ¬ (allBlank line = true ∨ depth < indentWidth line) := by
      simp [hline.visible, hline.depth]
    rw [List.nil_append, indentedLength_cons, if_neg hend]
    rfl
  | cons first front ih => rw [List.cons_append, indentedLength_cons, indentedLength_cons, ih]

/-- A line at the margin leaves all scopes. -/
theorem closeScopes_margin {line : Line} (hline : IsAtMargin line) (scopes : List OpenScope) :
    closeScopes .python line scopes = [] := by
  have hall : ∀ s ∈ scopes, decide (s.indent ≥ indentWidth line) = true := by
    simp [hline.depth]
  simpa [closeScopes, Language.usesBraces] using hall

theorem enterLine_margin {line : Line} (hline : IsAtMargin line) (scopes : List OpenScope) :
    enterLine .python scopes line = enterLine .python [] line := by
  simp only [enterLine, closeScopes_margin hline]
  rw [hline.visible, hline.comment]
  rfl

/-- The units of lines with a line at the margin in between are those above it and those from it on,
the latter found in no scope. The walk along the lines above meets the margin with nothing left to
cover. -/
theorem unitsFrom_append_margin {line : Line} (hline : IsAtMargin line) (scopes : List OpenScope)
    (index covered : Nat) (front rest : List Line) (hcovered : covered ≤ front.length) :
    unitsFrom o file .python scopes index covered (front ++ line :: rest)
      = unitsFrom o file .python scopes index covered front
        ++ unitsFrom o file .python [] (index + front.length) 0 (line :: rest) := by
  induction front generalizing scopes index covered with
  | nil =>
    obtain rfl : covered = 0 := Nat.le_zero.1 hcovered
    rw [List.nil_append, unitsFrom_cons, enterLine_margin hline, ← unitsFrom_cons]
    rfl
  | cons first front ih =>
    have hindex : index + (first :: front).length = index + 1 + front.length := by
      rw [List.length_cons]
      omega
    rw [List.cons_append, hindex]
    cases covered with
    | succ covered =>
      rw [unitsFrom, unitsFrom]
      exact ih scopes (index + 1) covered (Nat.le_of_succ_le_succ hcovered)
    | zero =>
      rw [unitsFrom_cons, unitsFrom_cons]
      rcases enterLine .python scopes first with ⟨scopes', _ | ⟨h, scope⟩⟩
      · exact ih scopes' (index + 1) 0 (Nat.zero_le _)
      · have hlength : unitLength o .python first (front ++ line :: rest)
            = unitLength o .python first front := by
          rw [unitLength_python, unitLength_python, indentedLength_append_margin hline]
        have hle := unitLength_le o .python first front
        have htake : (first :: (front ++ line :: rest)).take (unitLength o .python first front)
            = (first :: front).take (unitLength o .python first front) :=
          List.take_append_of_le_length hle
        have hrest := ih scopes' (index + 1) (unitLength o .python first front - 1)
          (Nat.sub_le_of_le_add hle)
        simp only [hlength, htake, hrest, List.append_assoc]

/-- Python texts are cut one by one: a text behind complete lines that starts at the margin has the
units that it has alone, as many lines further down as there are above, and the units above are
those of the text above. -/
theorem segment_append_at_margin (o : SegmentOptions) (file front text : String)
    (hfront : EndsWithLine front) (htext : StartsAtMargin text) :
    segment o (front ++ text) file .python
      = segment o front file .python
        ++ (segment o text file .python).map (·.movedDown (linesOf front).length) := by
  obtain ⟨line, hhead, hline⟩ := htext
  obtain ⟨rest, hlines⟩ := List.head?_eq_some_iff.1 hhead
  rw [segment, segment, segment, linesOf_append_text hfront, hlines,
    unitsFrom_append_margin hline [] 0 0 _ rest (Nat.zero_le _), unitsFrom_add]

/-- A function at the margin is outside of the class above it. -/
theorem segment_append_at_margin_class :
    let front := "class Queue:\n    def head(self):\n        return 0\n    # end\n\n"
    let text := "def size(queue):\n    return 1\n"
    EndsWithLine front ∧ StartsAtMargin text
      ∧ (segment {} (front ++ text) "queue.py" .python).map (fun u => (u.scope, u.range))
        = [(some "Queue", ⟨1, 3⟩), (none, ⟨5, 7⟩)] := by
  intro front text
  have hfront : EndsWithLine front := by
    intro c hc
    have hlast : front.toList.getLast? = some '\n' := by decide +kernel
    exact Option.some.inj (hc.symm.trans hlast)
  have htext : StartsAtMargin text :=
    ⟨"def size(queue):".toList, by decide +kernel, by decide +kernel, by decide +kernel,
      by decide +kernel⟩
  refine ⟨hfront, htext, ?_⟩
  rw [segment_append_at_margin {} "queue.py" front text hfront htext]
  decide +kernel

end Marginalia
