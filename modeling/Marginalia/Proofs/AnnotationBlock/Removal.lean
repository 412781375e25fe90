import Marginalia.Proofs.AnnotationBlock.Pieces

/-!
What stripping takes and what it leaves. The removed blocks are ranges of lines that follow each
other without overlap; what lies outside of them stays, and the removed lines put back at their
places give the text again. No line of code goes, no sentinel stays, and a stripped text has nothing
left to strip.
-/

namespace Marginalia

open Text

/-- The block took the line of this number. -/
def RemovedBlock.covers (b : RemovedBlock) (line : Nat) : Bool :=
  b.start ≤ line && line < b.start + b.length

/-- The lines that the block took. -/
def RemovedBlock.linesOf (b : RemovedBlock) (lines : List Line) : List Line :=
  (lines.drop b.start).take b.length

/-- Puts blocks of lines, each with the number of its first line, back between lines that stayed, of
which the first one would be number `place` without them. -/
def putBack (place : Nat) (kept : List Line) : List (Nat × List Line) → List Line
  | [] => kept
  | (start, block) :: blocks =>
    kept.take (start - place) ++ block
      ++ putBack (start + block.length) (kept.drop (start - place)) blocks

variable {l : Language}

/-! ### Ranges -/

theorem linesOf_append (f : BlockFormat) (above block below : List Line) :
    RemovedBlock.linesOf ⟨f, above.length, block.length⟩ (above ++ (block ++ below)) = block := by
  simp [RemovedBlock.linesOf]

/-- A block ends before the next one starts. -/
theorem pairwise_removedFrom (start : Nat) (ps : List Piece) :
    (removedFrom start ps).Pairwise fun b c => b.start + b.length ≤ c.start := by
  induction ps generalizing start with
  | nil => exact .nil
  | cons p ps ih =>
    cases p with
    | line x => exact ih (start + 1)
    | block f ls =>
      exact List.pairwise_cons.2 ⟨fun c hc => start_le_of_mem_removedFrom hc, ih _⟩

theorem not_covers_of_lt {start line : Nat} {ps : List Piece} (h : line < start) :
    (removedFrom start ps).all (!·.covers line) = true := by
  refine List.all_eq_true.2 fun b hb => ?_
  have hstart := start_le_of_mem_removedFrom hb
  simp [RemovedBlock.covers]
  omega

/-- What stays are the lines that no block covers. -/
theorem keptLines_eq_filter (start : Nat) (ps : List Piece) :
    keptLines ps = (((ps.flatMap Piece.lines).zipIdx start).filter fun (_, i) =>
      (removedFrom start ps).all (!·.covers i)).map (·.1) := by
  induction ps generalizing start with
  | nil => rfl
  | cons p ps ih =>
    rw [List.flatMap_cons, List.zipIdx_append, List.filter_append, List.map_append]
    cases p with
    | line x =>
      have hx : (removedFrom (start + 1) ps).all (!·.covers start) = true :=
        not_covers_of_lt (Nat.lt_succ_self start)
      have ih := ih (start + 1)
      rw [keptLines_line, Piece.lines, removedFrom, List.zipIdx_singleton, List.length_singleton,
        ← ih, List.filter_cons_of_pos (by exact hx)]
      rfl
    | block f ls =>
      have hgone : (ls.zipIdx start).filter (fun (_, i) =>
          (removedFrom start (.block f ls :: ps)).all (!·.covers i)) = [] := by
        refine List.filter_eq_nil_iff.2 fun x hx => ?_
        obtain ⟨hle, hlt⟩ := List.mem_zipIdx hx
        simp [removedFrom, RemovedBlock.covers]
        omega
      have hrest : ((ps.flatMap Piece.lines).zipIdx (start + ls.length)).filter (fun (_, i) =>
          (removedFrom start (.block f ls :: ps)).all (!·.covers i))
          = ((ps.flatMap Piece.lines).zipIdx (start + ls.length)).filter fun (_, i) =>
            (removedFrom (start + ls.length) ps).all (!·.covers i) := by
        refine List.filter_congr fun x hx => ?_
        have hle := (List.mem_zipIdx hx).1
        have hout : RemovedBlock.covers ⟨f, start, ls.length⟩ x.2 = false := by
          simp [RemovedBlock.covers]
          omega
        simp [removedFrom, hout]
      rw [keptLines_block, Piece.lines, hgone, hrest, ← ih]
      rfl

/-! ### Putting back -/

/-- A line above all blocks stays in front. -/
theorem putBack_cons {place : Nat} {blocks : List (Nat × List Line)}
    (h : ∀ b ∈ blocks, place < b.1) (line : Line) (kept : List Line) :
    putBack place (line :: kept) blocks = line :: putBack (place + 1) kept blocks := by
  cases blocks with
  | nil => rfl
  | cons b blocks =>
    obtain ⟨start, block⟩ := b
    obtain ⟨gap, rfl⟩ := Nat.exists_eq_add_of_lt (h _ List.mem_cons_self)
    have hgap : place + gap + 1 - place = gap + 1 := by omega
    have hgap' : place + gap + 1 - (place + 1) = gap := by omega
    simp [putBack, hgap, hgap']

/-- The removed lines put back between the lines that stayed are the lines of the pieces; `front`
are the lines above the pieces. -/
theorem putBack_keptLines (front : List Line) (ps : List Piece) :
    putBack front.length (keptLines ps) ((removedFrom front.length ps).map fun b =>
      (b.start, b.linesOf (front ++ ps.flatMap Piece.lines))) = ps.flatMap Piece.lines := by
  induction ps generalizing front with
  | nil => rfl
  | cons p ps ih =>
    have ih := ih (front ++ p.lines)
    rw [List.length_append, List.append_assoc] at ih
    rw [List.flatMap_cons]
    cases p with
    | line x =>
      rw [Piece.length_lines_line] at ih
      rw [keptLines_line, removedFrom, putBack_cons, ih]
      · rfl
      · intro b hb
        obtain ⟨c, hc, rfl⟩ := List.mem_map.1 hb
        exact start_le_of_mem_removedFrom hc
    | block f ls =>
      rw [Piece.length_lines_block] at ih
      rw [keptLines_block, removedFrom, List.map_cons]
      simp only [Piece.lines] at ih ⊢
      rw [linesOf_append, putBack, Nat.sub_self, List.take_zero, List.drop_zero, ih,
        List.nil_append]

/-! ### Code -/

/-- The lines of blocks are no code; `front` are the lines above the pieces. -/
theorem kind_of_mem_linesOf {lines : List Line} (front : List Line) {b : RemovedBlock}
    (hb : b ∈ removedFrom front.length (pieces l lines)) :
    ∀ line ∈ b.linesOf (front ++ lines), LineKind.of l line ≠ .code := by
  obtain ⟨above, block, below, rfl, hplace, hr⟩ := exists_of_mem_removedFrom hb
  rw [hplace, ← List.length_append, ← List.append_assoc, linesOf_append]
  exact not_code_of_recognize? hr

/-- All lines of code stay. -/
theorem filter_code_keptLines (lines : List Line) :
    (keptLines (pieces l lines)).filter (LineKind.of l · == .code)
      = lines.filter (LineKind.of l · == .code) := by
  refine pieces_induction (motive := fun lines ps =>
    (keptLines ps).filter (LineKind.of l · == .code) = lines.filter (LineKind.of l · == .code))
    ?_ ?_ ?_ lines
  · rfl
  · intro x rest _ ih
    rw [keptLines_line, List.filter_cons, List.filter_cons, ih]
  · intro f block rest _ hblock ih
    have hnone : block.filter (LineKind.of l · == .code) = [] :=
      List.filter_eq_nil_iff.2 fun line hline => by simpa using hblock line hline
    rw [keptLines_block, List.filter_append, hnone, ih, List.nil_append]

/-! ### Stripping a text -/

theorem flatMap_lines_pieces (lines : List Line) :
    (pieces l lines).flatMap Piece.lines = lines := by
  rw [pieces, flatMap_lines_piecesFrom, List.drop_zero]

/-- Stripping divides the lines of a text. The removed blocks are ranges of lines, none of them
empty, each ending before the next one starts and the last one within the text. The lines outside of
them stay in their order; with the removed lines put back between them they are the text again. Only
blank lines and comments are removed, so the code of the text is the code of what stays. -/
theorem strip_divides_lines (l : Language) (text : String) :
    let lines := splitLines text.toList
    let s := strip l text
    (∀ b ∈ s.removed, 0 < b.length ∧ b.start + b.length ≤ lines.length)
      ∧ s.removed.Pairwise (fun b c => b.start + b.length ≤ c.start)
      ∧ s.lines = (lines.zipIdx.filter fun (_, i) => s.removed.all (!·.covers i)).map (·.1)
      ∧ String.ofList (putBack 0 s.lines
          (s.removed.map fun b => (b.start, b.linesOf lines))).flatten = text
      ∧ (∀ b ∈ s.removed, ∀ i, b.covers i = true → ∃ line, lines[i]? = some line
          ∧ (LineKind.of l line = .blank ∨ (LineKind.of l line).isComment = true))
      ∧ s.lines.filter (LineKind.of l · == .code) = lines.filter (LineKind.of l · == .code) := by
  intro lines s
  have hlines : (pieces l lines).flatMap Piece.lines = lines := flatMap_lines_pieces lines
  have hstop : ∀ b ∈ s.removed, b.start + b.length ≤ lines.length := by
    intro b hb
    have hstop := stop_le_of_mem_removedFrom hb
    rwa [hlines, Nat.zero_add] at hstop
  refine ⟨fun b hb => ⟨length_pos_of_mem_removedFrom hb, hstop b hb⟩,
    pairwise_removedFrom 0 _, ?_, ?_, ?_, filter_code_keptLines lines⟩
  · have hkept := keptLines_eq_filter 0 (pieces l lines)
    rwa [hlines] at hkept
  · have hback := putBack_keptLines [] (pieces l lines)
    rw [List.nil_append, hlines] at hback
    rw [show putBack 0 s.lines (s.removed.map fun b => (b.start, b.linesOf lines)) = lines
      from hback, flatten_splitLines, String.ofList_toList]
  · intro b hb i hi
    obtain ⟨hle, hlt⟩ : b.start ≤ i ∧ i < b.start + b.length := by
      simpa [RemovedBlock.covers] using hi
    have hin : i < lines.length := Nat.lt_of_lt_of_le hlt (hstop b hb)
    have hmem : lines[i] ∈ b.linesOf ([] ++ lines) := by
      refine List.mem_of_getElem? (i := i - b.start) ?_
      rw [List.nil_append, RemovedBlock.linesOf, List.getElem?_take_of_lt (by omega),
        List.getElem?_drop, Nat.add_sub_cancel' hle, List.getElem?_eq_getElem hin]
    have hkind := kind_of_mem_linesOf (l := l) [] hb _ hmem
    refine ⟨lines[i], List.getElem?_eq_getElem hin, ?_⟩
    cases hcase : LineKind.of l lines[i] with
    | blank => exact .inl rfl
    | comment role => exact .inr rfl
    | code => exact absurd hcase hkind

/-- Stripping leaves nothing to strip. No line that stays opens or ends a block, even where lines
have come together that stood apart; so the lines that stay, read again as one text, are the same
lines, and no block is found among them. -/
theorem strip_leaves_nothing_to_strip (l : Language) (text : String) :
    let s := strip l text
    (∀ line ∈ s.lines, (LineKind.of l line).role ≠ some .start
        ∧ (LineKind.of l line).role ≠ some .stop ∧ (LineKind.of l line).role ≠ some .metadata)
      ∧ strip l (String.ofList s.lines.flatten) = ⟨s.lines, []⟩ := by
  intro s
  constructor
  · intro line hline
    have hopen := isOpener_strip line hline
    simpa [LineKind.isOpener, and_assoc] using hopen
  · have hnone := removed_strip_strip l text
    have hlines := lines_of_removed_eq_nil hnone
    rw [splitLines_strip] at hlines
    change strip l s.text = _
    generalize strip l s.text = again at hnone hlines
    cases again
    exact congrArg₂ Stripped.mk hlines hnone

end Marginalia
