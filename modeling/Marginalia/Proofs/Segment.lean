import Marginalia.AnnotationBlock.Line
import Marginalia.Proofs.Header
import Marginalia.Segment

/-!
Units and the lines they start on. What a line means to the units around it depends on the open
scopes alone, so the search for units is a walk along the lines. Every unit starts on a definition
line of its name, which is code to the annotation blocks, and no two units start on one line.
-/

namespace Marginalia

open Text

/-- What a line means that belongs to no unit yet: the scopes behind it and, if it opens a unit, its
header with the scope that it stands in. -/
def enterLine (l : Language) (scopes : List OpenScope) (line : Line) :
    List OpenScope × Option (Header × Option String) :=
  if allBlank line || isCommentLine l line then (scopes, none)
  else
    let scopes := closeScopes l line scopes
    match Header.ofLine? l line with
    | none => (openScope l line scopes, none)
    | some h =>
      (scopes, if isConstructor l h (scopeOf h scopes) then none else some (h, scopeOf h scopes))

/-- A unit found in the same lines `k` lines further down. -/
def CodeUnit.movedDown (u : CodeUnit) (k : Nat) : CodeUnit :=
  { u with
    id := .compose u.file u.scope u.name (u.range.firstLine + k)
    range := ⟨u.range.start + k, u.range.stop + k⟩ }

variable {o : SegmentOptions} {file : String} {l : Language}

/-! ### The walk along the lines -/

theorem unitsFrom_cons (scopes : List OpenScope) (index : Nat) (line : Line) (rest : List Line) :
    unitsFrom o file l scopes index 0 (line :: rest)
      = match enterLine l scopes line with
        | (scopes, none) => unitsFrom o file l scopes (index + 1) 0 rest
        | (scopes, some (h, scope)) =>
          (unitAt? o file l h scope index ((line :: rest).take (unitLength o l line rest))).toList
            ++ unitsFrom o file l scopes (index + 1) (unitLength o l line rest - 1) rest := by
  rw [unitsFrom, enterLine]
  split
  · rfl
  · cases hheader : Header.ofLine? l line with
    | none => rfl
    | some h =>
      simp only
      split <;> rfl

theorem header_of_enterLine {scopes scopes' : List OpenScope} {line : Line} {h : Header}
    {scope : Option String} (henter : enterLine l scopes line = (scopes', some (h, scope))) :
    Header.ofLine? l line = some h := by
  unfold enterLine at henter
  split at henter
  · simp at henter
  · split at henter
    · simp at henter
    · next h' hheader =>
      rw [Prod.mk.injEq] at henter
      have hsome := henter.2
      split at hsome
      · exact absurd hsome (by simp)
      · rw [hheader, ← (Prod.mk.inj (Option.some.inj hsome)).1]

/-- The unit of a definition line with its lines, if the file, the name and the lines are there. -/
theorem unitAt?_eq (h : Header) (scope : Option String) (index : Nat) (lines : List Line) :
    unitAt? o file l h scope index lines
      = if isBlankString file || isBlankString h.name || lines.isEmpty then none
        else some {
          id := .compose file (scope.filter fun s => !isBlankString s) h.name (index + 1)
          file := file
          language := l
          scope := scope.filter fun s => !isBlankString s
          name := h.name
          signature := h.name ++ "(" ++ trimmed h.params ++ ")"
          range := ⟨index, index + lines.length⟩
          body := String.ofList (joinLines lines)
          callsOut := callsOfBody (String.ofList (joinLines lines)) h.name l o.skipPrivateCalls
          callsIn := []
          verdict := none
          annotation := none
          indexId := none } := by
  have hempty : (⟨index, index + lines.length⟩ : LineRange).isEmpty = lines.isEmpty := by
    cases lines <;> simp [LineRange.isEmpty]
  simp only [unitAt?, CodeUnit.ofDraft, hempty]
  cases isBlankString file <;> cases isBlankString h.name <;> cases lines.isEmpty <;> rfl

theorem unitAt?_eq_some {h : Header} {scope : Option String} {index : Nat} {lines : List Line}
    {u : CodeUnit} (hu : unitAt? o file l h scope index lines = some u) :
    u.name = h.name ∧ u.range = ⟨index, index + lines.length⟩ := by
  rw [unitAt?_eq] at hu
  split at hu
  · exact absurd hu (by simp)
  · obtain rfl := Option.some.inj hu
    exact ⟨rfl, rfl⟩

/-- The same lines further down are the same unit further down. -/
theorem unitAt?_add (h : Header) (scope : Option String) (index k : Nat) (lines : List Line) :
    unitAt? o file l h scope (index + k) lines
      = (unitAt? o file l h scope index lines).map (·.movedDown k) := by
  rw [unitAt?_eq, unitAt?_eq]
  split
  · rfl
  · simp only [Option.map_some, CodeUnit.movedDown, LineRange.firstLine, Nat.add_right_comm]

theorem indentedLength_le (depth : Nat) (lines : List Line) :
    indentedLength depth lines ≤ lines.length :=
  (List.takeWhile_sublist _).length_le

/-! ### Where units start -/

/-- Every unit is one that some line opens, in scopes of which whatever no line breaks holds. -/
theorem exists_unitAt?_of_mem_unitsFrom {P : List OpenScope → Prop}
    (hP : ∀ {scopes} (line : Line), P scopes → P (enterLine l scopes line).1)
    {scopes : List OpenScope} {index covered : Nat} {lines : List Line} {u : CodeUnit}
    (hscopes : P scopes) (hu : u ∈ unitsFrom o file l scopes index covered lines) :
    ∃ scopes line h scope start body, P scopes ∧ (enterLine l scopes line).2 = some (h, scope)
      ∧ unitAt? o file l h scope start body = some u := by
  induction lines generalizing scopes index covered with
  | nil => exact absurd hu List.not_mem_nil
  | cons line rest ih =>
    cases covered with
    | succ covered => exact ih hscopes hu
    | zero =>
      rw [unitsFrom_cons] at hu
      have hnext := hP line hscopes
      cases henter : enterLine l scopes line with
      | mk scopes' opened =>
        rw [henter] at hu hnext
        cases opened with
        | none => exact ih hnext hu
        | some opened =>
          rcases List.mem_append.1 hu with hu | hu
          · exact ⟨scopes, line, opened.1, opened.2, _, _, hscopes, by rw [henter],
              Option.mem_toList.1 hu⟩
          · exact ih hnext hu

/-- Every unit of a text is one that some of its lines make. -/
theorem exists_unitAt?_of_mem_segment {text : String} {u : CodeUnit}
    (hu : u ∈ segment o text file l) :
    ∃ h scope start body, unitAt? o file l h scope start body = some u := by
  obtain ⟨-, -, h, scope, start, body, -, -, hunit⟩ :=
    exists_unitAt?_of_mem_unitsFrom (P := fun _ => True) (fun _ _ => trivial) trivial hu
  exact ⟨h, scope, start, body, hunit⟩

/-- A unit starts on a definition line of its name, behind the lines that are covered. -/
theorem start_of_mem_unitsFrom {scopes : List OpenScope} {index covered : Nat} {lines : List Line}
    {u : CodeUnit} (hu : u ∈ unitsFrom o file l scopes index covered lines) :
    ∃ k line h, covered ≤ k ∧ u.range.start = index + k ∧ lines[k]? = some line
      ∧ Header.ofLine? l line = some h ∧ u.name = h.name := by
  induction lines generalizing scopes index covered with
  | nil => simp [unitsFrom] at hu
  | cons line rest ih =>
    have hshift : ∀ {scopes : List OpenScope} {covered' : Nat},
        u ∈ unitsFrom o file l scopes (index + 1) covered' rest → covered ≤ covered' + 1 →
        ∃ k line' h, covered ≤ k ∧ u.range.start = index + k ∧ (line :: rest)[k]? = some line'
          ∧ Header.ofLine? l line' = some h ∧ u.name = h.name := by
      intro scopes covered' hmem hle
      obtain ⟨k, line', h, hk, hstart, hline, hh⟩ := ih hmem
      exact ⟨k + 1, line', h, by omega, by omega, by simpa using hline, hh⟩
    cases covered with
    | succ covered => exact hshift hu (Nat.le_refl _)
    | zero =>
      rw [unitsFrom_cons] at hu
      cases henter : enterLine l scopes line with
      | mk scopes' opened =>
        rw [henter] at hu
        cases opened with
        | none => exact hshift hu (Nat.zero_le _)
        | some opened =>
          rcases List.mem_append.1 hu with hu | hu
          · obtain ⟨hname, hrange⟩ := unitAt?_eq_some (Option.mem_toList.1 hu)
            exact ⟨0, line, opened.1, Nat.le_refl _, by rw [hrange]; rfl, rfl,
              header_of_enterLine henter, hname⟩
          · exact hshift hu (Nat.zero_le _)

theorem le_start_of_mem_unitsFrom {scopes : List OpenScope} {index covered : Nat}
    {lines : List Line} :
    ∀ u ∈ unitsFrom o file l scopes index covered lines, index + covered ≤ u.range.start := by
  intro u hu
  obtain ⟨k, -, -, hk, hstart, -⟩ := start_of_mem_unitsFrom hu
  omega

/-- The line that a unit of a whole text starts on. -/
theorem line_of_mem_unitsFrom {lines : List Line} {u : CodeUnit}
    (hu : u ∈ unitsFrom o file l [] 0 0 (lines.map content)) :
    ∃ line h, lines[u.range.start]? = some line ∧ Header.ofLine? l (content line) = some h
      ∧ u.name = h.name := by
  obtain ⟨k, shown, h, -, hstart, hshown, hheader, hname⟩ := start_of_mem_unitsFrom hu
  obtain rfl : u.range.start = k := by omega
  rw [List.getElem?_map] at hshown
  obtain ⟨line, hline, rfl⟩ := Option.map_eq_some_iff.1 hshown
  exact ⟨line, h, hline, hheader, hname⟩

theorem start_lt_of_mem_unitsFrom {lines : List Line} {u : CodeUnit}
    (hu : u ∈ unitsFrom o file l [] 0 0 (lines.map content)) : u.range.start < lines.length := by
  obtain ⟨line, -, hline, -⟩ := line_of_mem_unitsFrom hu
  exact (List.getElem?_eq_some_iff.1 hline).1

/-- Units start one below the other. -/
theorem pairwise_start_unitsFrom (scopes : List OpenScope) (index covered : Nat)
    (lines : List Line) :
    (unitsFrom o file l scopes index covered lines).Pairwise
      fun u v => u.range.start < v.range.start := by
  induction lines generalizing scopes index covered with
  | nil => simp [unitsFrom]
  | cons line rest ih =>
    cases covered with
    | succ covered => exact ih scopes (index + 1) covered
    | zero =>
      rw [unitsFrom_cons]
      cases enterLine l scopes line with
      | mk scopes' opened =>
        cases opened with
        | none => exact ih scopes' (index + 1) 0
        | some opened =>
          refine List.pairwise_append.2 ⟨?_, ih _ _ _, fun u hu v hv => ?_⟩
          · cases unitAt? o file l opened.1 opened.2 index
              ((line :: rest).take (unitLength o l line rest)) <;> simp
          · obtain ⟨-, hrange⟩ := unitAt?_eq_some (Option.mem_toList.1 hu)
            have hstart := le_start_of_mem_unitsFrom v hv
            rw [hrange]
            exact Nat.lt_of_lt_of_le (Nat.lt_succ_self index) (Nat.le_of_add_right_le hstart)

/-! ### Definition lines are code -/

theorem not_opensNothing {line : Line} {h : Header} (hh : Header.ofLine? l line = some h) :
    allBlank line = false ∧ isCommentLine l line = false := by
  constructor
  · cases hblank : allBlank line with
    | false => rfl
    | true => rw [Header.ofLine?_eq_none_of_blank hblank] at hh; exact absurd hh (by simp)
  · cases hcomment : isCommentLine l line with
    | false => rfl
    | true => rw [Header.ofLine?_eq_none_of_comment hcomment] at hh; exact absurd hh (by simp)

theorem allBlank_of_content {line : Line} (h : allBlank (content line) = false) :
    allBlank line = false := by
  obtain ⟨tail, hline, -⟩ := content_append line
  rw [hline, allBlank, List.all_append]
  simp only [allBlank] at h
  rw [h, Bool.false_and]

/-- Lines of which the segmentation says that they are no comments are none to the blocks. -/
theorem commentBody?_eq_none {line : Line} (h : isCommentLine l (withoutTerminator line) = false)
    (hvisible : allBlank line = false) : commentBody? l line = none := by
  obtain ⟨front, c, rest, rfl, hfront, hc⟩ := exists_visible hvisible
  have hend : (c == '\r' || c == '\n') = false := not_terminator_of_visible hc
  have hcut : withoutTerminator (c :: rest) = c :: withoutTerminator rest :=
    dropTrailing_append_cons hend [] rest
  rw [withoutTerminator, dropTrailing_append_cons hend, ← withoutTerminator] at h
  unfold isCommentLine at h
  rw [trimStart_append_visible hfront hc] at h
  rw [commentBody?, trimStart_append_visible hfront hc, hcut]
  generalize c :: withoutTerminator rest = visible at h
  cases l with
  | python => simp [Language.commentMark, dropFront?_eq_none_iff.2 h]
  | _ =>
    simp only [Bool.or_eq_false_iff] at h
    obtain ⟨⟨⟨hslashes, -⟩, -⟩, hhash⟩ := h
    have hdirective : (dropFront? ['#'] visible).filter
        (fun rest => rest.isEmpty || rest.head? == some ' ') = none := by
      cases hrest : dropFront? ['#'] visible with
      | none => rfl
      | some rest =>
        -- a hash sign that opens no comment has a bracket behind it
        rw [dropFront?_eq_some_iff] at hrest
        subst hrest
        cases rest with
        | nil => simp at hhash
        | cons d rest =>
          obtain rfl : '[' = d := by simpa using hhash
          rfl
    simp [Language.commentMark, dropFront?_eq_none_iff.2 hslashes, hdirective]

/-- A definition line is code: neither blank nor a comment. -/
theorem kind_of_header {line : Line} (h : IsLine line) {header : Header}
    (hh : Header.ofLine? l (content line) = some header) : LineKind.of l line = .code := by
  have hvisible := allBlank_of_content (not_opensNothing hh).1
  rw [Header.ofLine?_content h] at hh
  have hcomment := (not_opensNothing hh).2
  rw [LineKind.of, hvisible, commentBody?_eq_none hcomment hvisible]
  rfl

end Marginalia
