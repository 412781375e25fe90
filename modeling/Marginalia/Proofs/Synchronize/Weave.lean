import Mathlib.Algebra.BigOperators.Group.List.Basic
import Marginalia.Proofs.AnnotationBlock.Written
import Marginalia.Synchronize

/-!
Weaving blocks between lines. Where no line opens a block, the blocks that are put between them are
the only ones of the new text: they are cut in one piece each, and the lines around them are again
all that stays.
-/

namespace Marginalia

open Text

/-- A block as it is written somewhere: with white space that stands on one line in front of it. -/
def IsWritten (l : Language) (block : List Line) : Prop :=
  ∃ a indent newline, block = blockLines a l indent newline ∧ (∀ c ∈ indent, isBlank c)
    ∧ '\n' ∉ indent ∧ IsNewline newline

/-- The blocks of patches as pieces. -/
def blockPieces (patches : List Patch) : List Piece :=
  patches.map fun p => .block .delimited p.block

/-- The pieces of the lines from number `i` on, woven with patches. -/
def wovenPieces (i : Nat) (lines : List Line) (patches : List Patch) : List Piece :=
  (lines.zipIdx i).flatMap fun (line, i) =>
    blockPieces (patches.filter (·.anchor == i)) ++ [.line line]

variable {l : Language} {lines : List Line} {patches : List Patch}

theorem IsWritten.isTerminated {block : List Line} (h : IsWritten l block) :
    ∀ line ∈ block, IsTerminated line := by
  obtain ⟨a, indent, newline, rfl, -, hi, hn⟩ := h
  intro line hline
  obtain ⟨body, rfl, hbody⟩ := mem_blockLines hline
  exact isTerminated_commentLine hi hn hbody

/-! ### The lines of a woven text -/

theorem areLines_weaveFrom (hlines : AreLines lines) (hp : ∀ p ∈ patches, IsWritten l p.block)
    (i : Nat) :
    AreLines ((lines.zipIdx i).flatMap fun (line, i) =>
      (patches.filter (·.anchor == i)).flatMap (·.block) ++ [line]) := by
  induction lines generalizing i with
  | nil => exact hlines
  | cons line rest ih =>
    have hrest := List.pairwise_cons.1 hlines.terminated
    have ih := ih ⟨fun x hx => hlines.isLine x (List.mem_cons_of_mem _ hx), hrest.2⟩ (i + 1)
    rw [List.zipIdx_cons, List.flatMap_cons, List.append_assoc]
    refine AreLines.append (fun x hx => ?_) ?_
    · obtain ⟨p, hmem, hx⟩ := List.mem_flatMap.1 hx
      exact (hp p (List.mem_filter.1 hmem).1).isTerminated x hx
    · rw [List.singleton_append]
      refine ⟨fun x hx => ?_, List.pairwise_cons.2 ⟨fun x hx => ?_, ih.terminated⟩⟩
      · rcases List.mem_cons.1 hx with rfl | hx
        · exact hlines.isLine x (by simp)
        · exact ih.isLine x hx
      · cases rest with
        | nil => exact absurd hx List.not_mem_nil
        | cons next rest => exact hrest.1 next (by simp)

/-- A woven text falls into the lines that have been woven. -/
theorem splitLines_weave (hlines : AreLines lines) (hp : ∀ p ∈ patches, IsWritten l p.block) :
    splitLines (weave lines patches).flatten = weave lines patches :=
  splitLines_flatten (areLines_weaveFrom hlines hp 0)

/-! ### The pieces of a woven text -/

theorem pieces_flatMap_append {α : Type} {f : α → List Line} {g : α → List Piece} {xs : List α}
    (h : ∀ x ∈ xs, ∀ rest, pieces l (f x ++ rest) = g x ++ pieces l rest) (rest : List Line) :
    pieces l (xs.flatMap f ++ rest) = xs.flatMap g ++ pieces l rest := by
  induction xs with
  | nil => rfl
  | cons x xs ih =>
    rw [List.flatMap_cons, List.flatMap_cons, List.append_assoc, List.append_assoc,
      h x (by simp), ih fun y hy => h y (List.mem_cons_of_mem _ hy)]

theorem pieces_blocks_append (hp : ∀ p ∈ patches, IsWritten l p.block) (rest : List Line) :
    pieces l (patches.flatMap (·.block) ++ rest)
      = blockPieces patches ++ pieces l rest := by
  rw [blockPieces, List.map_eq_flatMap]
  refine pieces_flatMap_append (fun p hmem rest => ?_) rest
  obtain ⟨a, indent, newline, hblock, hi, -, hn⟩ := hp p hmem
  rw [hblock, pieces_blockLines_append a hi hn]
  rfl

/-- Every block that was woven in is a piece, and every line. -/
theorem pieces_weave (hlines : ∀ line ∈ lines, (LineKind.of l line).isOpener = false)
    (hp : ∀ p ∈ patches, IsWritten l p.block) :
    pieces l (weave lines patches) = wovenPieces 0 lines patches := by
  have hgroup : ∀ x ∈ lines.zipIdx, ∀ rest,
      pieces l ((patches.filter (·.anchor == x.2)).flatMap (·.block) ++ [x.1] ++ rest)
        = blockPieces (patches.filter (·.anchor == x.2)) ++ [.line x.1]
          ++ pieces l rest := by
    intro x hx rest
    have hline := hlines x.1 (List.fst_mem_of_mem_zipIdx hx)
    rw [List.append_assoc, List.append_assoc, List.singleton_append, List.singleton_append,
      pieces_blocks_append fun p hmem => hp p (List.mem_filter.1 hmem).1, pieces_cons hline]
  have h := pieces_flatMap_append hgroup []
  simp only [List.append_nil, pieces_nil] at h
  exact h

theorem wovenPieces_append (i : Nat) (xs ys : List Line) (patches : List Patch) :
    wovenPieces i (xs ++ ys) patches
      = wovenPieces i xs patches ++ wovenPieces (i + xs.length) ys patches := by
  rw [wovenPieces, List.zipIdx_append, List.flatMap_append]
  rfl

theorem wovenPieces_cons (i : Nat) (line : Line) (rest : List Line) (patches : List Patch) :
    wovenPieces i (line :: rest) patches
      = blockPieces (patches.filter (·.anchor == i))
        ++ .line line :: wovenPieces (i + 1) rest patches := by
  rw [wovenPieces, List.zipIdx_cons, List.flatMap_cons, ← wovenPieces, List.append_assoc]
  rfl

/-- The last piece of a woven text is a line. -/
theorem getLast?_wovenPieces (i : Nat) (lines : List Line) (patches : List Patch)
    (f : BlockFormat) (block : List Line) :
    (wovenPieces i lines patches).getLast? ≠ some (.block f block) := by
  rcases List.eq_nil_or_concat lines with rfl | ⟨front, line, rfl⟩
  · simp [wovenPieces]
  · rw [List.concat_eq_append, wovenPieces_append, wovenPieces_cons]
    simp [wovenPieces]

theorem keptLines_blocks (patches : List Patch) :
    keptLines (blockPieces patches) = [] := by
  induction patches with
  | nil => rfl
  | cons p ps ih => exact ih

theorem keptLines_wovenPieces (i : Nat) (lines : List Line) (patches : List Patch) :
    keptLines (wovenPieces i lines patches) = lines := by
  induction lines generalizing i with
  | nil => rfl
  | cons line rest ih =>
    rw [wovenPieces_cons, keptLines_append, keptLines_blocks, keptLines_line, ih, List.nil_append]

/-! ### The blocks of a woven text -/

/-- The format of a piece that is a block. -/
def Piece.format? : Piece → Option BlockFormat
  | line _ => none
  | block f _ => some f

theorem formats_removedFrom (start : Nat) (ps : List Piece) :
    (removedFrom start ps).map (·.format) = ps.filterMap Piece.format? := by
  induction ps generalizing start with
  | nil => rfl
  | cons p ps ih =>
    cases p with
    | line x => exact ih (start + 1)
    | block f ls => exact congrArg (f :: ·) (ih (start + ls.length))

/-- The patches above the lines from number `i` on. -/
def patchesFrom (i : Nat) (lines : List Line) (patches : List Patch) : List Patch :=
  (lines.zipIdx i).flatMap fun (_, i) => patches.filter (·.anchor == i)

theorem patchesFrom_cons (i : Nat) (line : Line) (rest : List Line) (patches : List Patch) :
    patchesFrom i (line :: rest) patches
      = patches.filter (·.anchor == i) ++ patchesFrom (i + 1) rest patches := by
  rw [patchesFrom, List.zipIdx_cons, List.flatMap_cons]
  rfl

theorem formats_wovenPieces (i : Nat) (lines : List Line) (patches : List Patch) :
    (wovenPieces i lines patches).filterMap Piece.format?
      = List.replicate (patchesFrom i lines patches).length .delimited := by
  induction lines generalizing i with
  | nil => rfl
  | cons line rest ih =>
    rw [wovenPieces_cons, patchesFrom_cons, List.length_append, List.replicate_add, ← ih,
      List.filterMap_append, blockPieces, List.filterMap_map]
    simp [List.filterMap_cons, Piece.format?, Function.comp_def, List.map_const']

theorem patchesFrom_perm_filter (i : Nat) (lines : List Line) (patches : List Patch) :
    (patchesFrom i lines patches).Perm
      (patches.filter fun p => i ≤ p.anchor && p.anchor < i + lines.length) := by
  induction lines generalizing i with
  | nil =>
    have hnone : (patches.filter fun p => decide (i ≤ p.anchor)
        && decide (p.anchor < i + 0)) = [] :=
      List.filter_eq_nil_iff.2 fun p _ => by simp
    exact hnone ▸ List.Perm.refl []
  | cons line rest ih =>
    have hsplit := List.filter_append_perm (·.anchor == i)
      (patches.filter fun p => i ≤ p.anchor && p.anchor < i + (line :: rest).length)
    rw [List.filter_filter, List.filter_filter] at hsplit
    rw [patchesFrom_cons]
    refine List.Perm.trans ?_ hsplit
    have hhere : ∀ p : Patch, (p.anchor == i) = (p.anchor == i && (decide (i ≤ p.anchor)
        && decide (p.anchor < i + (line :: rest).length))) := by
      intro p
      rw [Bool.eq_iff_iff]
      simp
      omega
    have hbehind : ∀ p : Patch, (decide (i + 1 ≤ p.anchor)
          && decide (p.anchor < i + 1 + rest.length))
        = (!(p.anchor == i) && (decide (i ≤ p.anchor)
          && decide (p.anchor < i + (line :: rest).length))) := by
      intro p
      rw [Bool.eq_iff_iff]
      simp
      omega
    rw [← List.filter_congr fun p _ => hhere p, ← List.filter_congr fun p _ => hbehind p]
    exact (ih (i + 1)).append_left _

/-- Every patch whose anchor is one of the lines is woven in once. -/
theorem length_patchesFrom (h : ∀ p ∈ patches, p.anchor < lines.length) :
    (patchesFrom 0 lines patches).length = patches.length := by
  rw [(patchesFrom_perm_filter 0 lines patches).length_eq, List.filter_eq_self.2]
  intro p hp
  simpa using h p hp

theorem patchesFrom_append (i : Nat) (xs ys : List Line) (patches : List Patch) :
    patchesFrom i (xs ++ ys) patches
      = patchesFrom i xs patches ++ patchesFrom (i + xs.length) ys patches := by
  rw [patchesFrom, List.zipIdx_append, List.flatMap_append]
  rfl

/-- The number of block lines that are woven in at or above a line. -/
def insertedLines (patches : List Patch) (line : Nat) : Nat :=
  ((patches.filter (·.anchor ≤ line)).map (·.block.length)).sum

theorem insertedLines_eq {i : Nat} (h : i < lines.length) : insertedLines patches i
    = ((patchesFrom 0 (lines.take (i + 1)) patches).map (·.block.length)).sum := by
  have hperm := patchesFrom_perm_filter 0 (lines.take (i + 1)) patches
  rw [insertedLines, (hperm.map _).sum_eq, List.length_take_of_le h]
  congr 2
  refine List.filter_congr fun p _ => ?_
  rw [Nat.zero_add, decide_eq_true (Nat.zero_le _), Bool.true_and]
  exact decide_eq_decide.2 Nat.lt_succ_iff.symm

theorem length_lines_blocks (patches : List Patch) :
    ((blockPieces patches).flatMap Piece.lines).length
      = (patches.map (·.block.length)).sum := by
  rw [blockPieces, List.flatMap_map, List.length_flatMap]
  rfl

theorem length_lines_wovenPieces (i : Nat) (lines : List Line) (patches : List Patch) :
    ((wovenPieces i lines patches).flatMap Piece.lines).length
      = lines.length + ((patchesFrom i lines patches).map (·.block.length)).sum := by
  induction lines generalizing i with
  | nil => rfl
  | cons line rest ih =>
    rw [wovenPieces_cons, patchesFrom_cons, List.flatMap_append, List.length_append,
      length_lines_blocks, Piece.length_lines_cons, Piece.length_lines_line, ih, List.map_append,
      List.sum_append, List.length_cons]
    omega

/-! ### Taking the blocks out again -/

/-- Stripping a woven text leaves the lines and takes out the blocks. -/
theorem strip_weave (hlines : AreLines lines)
    (hopen : ∀ line ∈ lines, (LineKind.of l line).isOpener = false)
    (hp : ∀ p ∈ patches, IsWritten l p.block) :
    strip l (String.ofList (weave lines patches).flatten)
      = ⟨lines, removedFrom 0 (wovenPieces 0 lines patches)⟩ := by
  simp only [strip, String.toList_ofList, splitLines_weave hlines hp, pieces_weave hopen hp,
    keptLines_wovenPieces]

/-- The pieces of a woven text around one of its lines. -/
theorem pieces_weave_at (hlines : AreLines lines)
    (hopen : ∀ line ∈ lines, (LineKind.of l line).isOpener = false)
    (hp : ∀ p ∈ patches, IsWritten l p.block) {i : Nat} (h : i < lines.length) :
    pieces l (splitLines (String.ofList (weave lines patches).flatten).toList)
      = wovenPieces 0 (lines.take i) patches ++ blockPieces (patches.filter (·.anchor == i))
        ++ .line lines[i] :: wovenPieces (i + 1) (lines.drop (i + 1)) patches := by
  have hsplit : lines = lines.take i ++ lines[i] :: lines.drop (i + 1) := by
    rw [← List.drop_eq_getElem_cons h, List.take_append_drop]
  rw [String.toList_ofList, splitLines_weave hlines hp, pieces_weave hopen hp]
  conv_lhs => rw [hsplit]
  rw [wovenPieces_append, wovenPieces_cons, List.length_take_of_le (Nat.le_of_lt h), Nat.zero_add,
    List.append_assoc]

/-- A line of a woven text stands below the block lines that are woven in at or above it. -/
theorem shifted_weave (hlines : AreLines lines)
    (hopen : ∀ line ∈ lines, (LineKind.of l line).isOpener = false)
    (hp : ∀ p ∈ patches, IsWritten l p.block) {i : Nat} (h : i < lines.length) :
    (strip l (String.ofList (weave lines patches).flatten)).shifted (i + insertedLines patches i)
      = i := by
  have htake : (lines.take i).length = i := List.length_take_of_le (Nat.le_of_lt h)
  have hlength : ((wovenPieces 0 (lines.take i) patches
      ++ blockPieces (patches.filter (·.anchor == i))).flatMap Piece.lines).length
        = i + insertedLines patches i := by
    rw [List.flatMap_append, List.length_append, length_lines_wovenPieces, length_lines_blocks,
      insertedLines_eq h, List.take_succ_eq_append_getElem h, patchesFrom_append, patchesFrom_cons,
      htake, Nat.zero_add, List.map_append, List.map_append, List.sum_append, List.sum_append]
    simp [patchesFrom, Nat.add_assoc]
  have hshifted := shifted_eq (pieces_weave_at hlines hopen hp h)
  rw [hlength, keptLines_append, keptLines_wovenPieces, keptLines_blocks, List.append_nil,
    htake] at hshifted
  exact hshifted

/-! ### What stands above a line -/

/-- Directly above number `i` of the lines that stay in a text is one block, and it says what `a`
says. -/
def IsAnnotatedIn (l : Language) (text : String) (lines : List Line) (i : Nat) (a : Annotation) :
    Prop :=
  ∃ ps block line qs, pieces l (splitLines text.toList) = ps ++ .block .delimited block
      :: .line line :: qs
    ∧ keptLines ps = lines.take i ∧ lines[i]? = some line
    ∧ (∀ f b, ps.getLast? ≠ some (.block f b)) ∧ readBlock l block = .ok (.delimited, a)

/-- What stands above two lines is the same if as many lines stay above each. -/
theorem front_eq_of_append_eq {ps ps' qs qs' : List Piece} {line line' : Line}
    (h : ps ++ .line line :: qs = ps' ++ .line line' :: qs')
    (hkept : (keptLines ps).length = (keptLines ps').length) : ps = ps' := by
  -- one of the two stands at the front of the other, with no line between their ends
  have hfront : ∀ {ps more qs qs' : List Piece} {line line' : Line},
      (keptLines ps).length = (keptLines (ps ++ more)).length →
      .line line :: qs = more ++ .line line' :: qs' → ps = ps ++ more := by
    intro ps more qs qs' line line' hkept h
    cases more with
    | nil => rw [List.append_nil]
    | cons p more =>
      obtain rfl := (List.cons.inj h).1
      rw [keptLines_append, keptLines_line] at hkept
      simp at hkept
  rcases List.append_eq_append_iff.1 h with ⟨more, rfl, hmore⟩ | ⟨more, rfl, hmore⟩
  · exact hfront hkept hmore
  · exact (hfront hkept.symm hmore).symm

theorem filter_anchor_eq_singleton {p : Patch}
    (hd : patches.Pairwise fun p q => p.anchor ≠ q.anchor) (hp : p ∈ patches) :
    patches.filter (·.anchor == p.anchor) = [p] := by
  obtain ⟨front, back, rfl⟩ := List.append_of_mem hp
  obtain ⟨-, hback, hfront⟩ := List.pairwise_append.1 hd
  have hback := (List.pairwise_cons.1 hback).1
  have hnone : ∀ q ∈ front, ¬ (q.anchor == p.anchor) = true := fun q hq => by
    simpa using hfront q hq p (by simp)
  have hnone' : ∀ q ∈ back, ¬ (q.anchor == p.anchor) = true := fun q hq => by
    simpa using (hback q hq).symm
  rw [List.filter_append, List.filter_cons_of_pos (by simp), List.filter_eq_nil_iff.2 hnone,
    List.filter_eq_nil_iff.2 hnone', List.nil_append]

/-- Above a line stands what was woven in above it, alone. -/
theorem isAnnotatedIn_weave_iff (hlines : AreLines lines)
    (hopen : ∀ line ∈ lines, (LineKind.of l line).isOpener = false)
    (hp : ∀ p ∈ patches, IsWritten l p.block) (hanchors : ∀ p ∈ patches, p.anchor < lines.length)
    (hd : patches.Pairwise fun p q => p.anchor ≠ q.anchor) {i : Nat} {a : Annotation} :
    IsAnnotatedIn l (String.ofList (weave lines patches).flatten) lines i a
      ↔ ∃ p ∈ patches, p.anchor = i ∧ readBlock l p.block = .ok (.delimited, a) := by
  constructor
  · rintro ⟨ps, block, line, qs, hps, hkept, hline, -, hread⟩
    have hlt := (List.getElem?_eq_some_iff.1 hline).1
    rw [pieces_weave_at hlines hopen hp hlt, ← List.singleton_append (l := Piece.line line :: qs),
      ← List.append_assoc ps] at hps
    have hfront := front_eq_of_append_eq hps (by
      rw [keptLines_append, keptLines_append, keptLines_wovenPieces, keptLines_blocks, hkept,
        keptLines_block]
      rfl)
    by_cases habove : ∃ p ∈ patches, p.anchor = i
    · obtain ⟨p, hmem, rfl⟩ := habove
      rw [filter_anchor_eq_singleton hd hmem] at hfront
      have hblock := List.singleton_inj.1 (List.append_inj' hfront rfl).2
      exact ⟨p, hmem, rfl, (Piece.block.inj hblock).2 ▸ hread⟩
    · have hnone : patches.filter (·.anchor == i) = [] :=
        List.filter_eq_nil_iff.2 fun p hmem hanchor => habove ⟨p, hmem, beq_iff_eq.1 hanchor⟩
      rw [hnone, blockPieces, List.map_nil, List.append_nil] at hfront
      have hlast := congrArg List.getLast? hfront
      rw [List.getLast?_concat] at hlast
      exact absurd hlast (getLast?_wovenPieces _ _ _ _ _)
  · rintro ⟨p, hmem, rfl, hread⟩
    have hanchor := hanchors p hmem
    refine ⟨wovenPieces 0 (lines.take p.anchor) patches, p.block, lines[p.anchor],
      wovenPieces (p.anchor + 1) (lines.drop (p.anchor + 1)) patches, ?_,
      keptLines_wovenPieces _ _ _, List.getElem?_eq_getElem hanchor,
      getLast?_wovenPieces _ _ _, hread⟩
    rw [pieces_weave_at hlines hopen hp hanchor, filter_anchor_eq_singleton hd hmem,
      List.append_assoc]
    rfl

end Marginalia
