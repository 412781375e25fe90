import Marginalia.Proofs.Segment.Asides
import Marginalia.Proofs.Synchronize.Anchoring

/-!
Segmenting a text that has been synchronized. To segmentation the lines of a written block are
asides of the line below them. So where blocks stand above the first lines of units alone, the units
of the new text are those of the old one, further down.
-/

namespace Marginalia

open Text Groups

variable {l : Language}

/-! ### The lines of a block -/

theorem bracesFrom_comment {indent : List Char} (hi : ∀ c ∈ indent, isBlank c) (rest : List Char) :
    bracesFrom l none 0 (indent ++ '/' :: '/' :: rest) = [] := by
  induction indent with
  | nil => simp [bracesFrom]
  | cons c indent ih =>
    have hne : ∀ d : Char, isBlank d = false → c ≠ d := by
      rintro d hd rfl
      exact absurd (hi c (by simp)) (by simp [hd])
    rw [List.cons_append, bracesFrom]
    simp only [hne '/' (by decide), hne '"' (by decide), hne '\x60' (by decide),
      hne '\x27' (by decide), hne '\x7b' (by decide), hne '\x7d' (by decide), decide_false,
      Bool.false_and, Bool.or_false, Bool.false_eq_true, if_false]
    exact ih fun d hd => hi d (List.mem_cons_of_mem c hd)

theorem commentMark_of_usesBraces (h : l.usesBraces = true) : l.commentMark = ['/', '/'] := by
  cases l with
  | python => exact absurd h (by decide)
  | _ => rfl

theorem indentWidth_append_visible {front : List Char} (hfront : ∀ d ∈ front, isBlank d) {c : Char}
    (hc : isBlank c = false) (rest : List Char) :
    indentWidth (front ++ c :: rest) = front.length := by
  rw [indentWidth, List.takeWhile_append_of_pos hfront, List.takeWhile_cons_of_neg (by simp [hc]),
    List.append_nil]

/-- The white space in front of a visible line counts as its depth, whichever way the line loses its
terminator. -/
theorem length_leadingSpace {line : Line} (h : IsLine line) (hvisible : allBlank line = false) :
    (leadingSpace line).length = indentWidth (content line) := by
  obtain ⟨returns, hcontent, -⟩ := content_eq_withoutTerminator_append h
  obtain ⟨front, c, rest, rfl, hfront, hc⟩ := exists_visible hvisible
  rw [hcontent, leadingSpace, withoutTerminator,
    dropTrailing_append_cons (not_terminator_of_visible hc), ← indentWidth,
    indentWidth_append_visible hfront hc, List.append_assoc, List.cons_append,
    indentWidth_append_visible hfront hc]

/-- A line of a block is an aside of the line that the block stands above. -/
theorem isAside_content {lines : List Line} {anchor : Nat} {a : Annotation} {line : Line}
    (hline : lines[anchor]? = some line) (hisLine : IsLine line) (hvisible : allBlank line = false)
    {x : Line} (hx : x ∈ blockAbove l lines anchor a) :
    IsAside l (indentWidth (content line)) (content x) := by
  have hget : lines.getD anchor [] = line := by rw [List.getD_eq_getElem?_getD, hline]; rfl
  obtain ⟨body, rfl, hbody⟩ := mem_blockLines hx
  obtain ⟨c, rest, hmark, hc, -⟩ := commentMark_cons l
  rw [hget, content_commentLine (isNewline_newlineFor _ _) hbody, List.append_assoc]
  have hcons : leadingSpace line ++ (l.commentMark ++ ' ' :: body)
      = leadingSpace line ++ c :: (rest ++ ' ' :: body) := by rw [hmark, List.cons_append]
  refine ⟨?_, ?_, fun hl => ?_, ?_⟩
  · unfold isCommentLine
    rw [hcons, trimStart_append_visible isBlank_leadingSpace hc, ← List.cons_append, ← hmark]
    cases l <;> rfl
  · rw [hcons]
    simp [allBlank, hc]
  · rw [commentMark_of_usesBraces hl]
    exact bracesFrom_comment isBlank_leadingSpace _
  · rw [hcons, indentWidth_append_visible isBlank_leadingSpace hc,
      length_leadingSpace hisLine hvisible]

/-! ### Woven lines as groups -/

/-- The contents of lines from number `i` on, each with those of the blocks above it. -/
def groupsFrom (i : Nat) (lines : List Line) (patches : List Patch) : Groups :=
  (lines.zipIdx i).map fun (line, i) =>
    (((patches.filter (·.anchor == i)).flatMap (·.block)).map content, content line)

theorem groupsFrom_cons (i : Nat) (line : Line) (rest : List Line) (patches : List Patch) :
    groupsFrom i (line :: rest) patches
      = (((patches.filter (·.anchor == i)).flatMap (·.block)).map content, content line)
        :: groupsFrom (i + 1) rest patches := rfl

theorem full_groupsFrom (lines : List Line) (patches : List Patch) :
    full (groupsFrom 0 lines patches) = (weave lines patches).map content := by
  rw [full, groupsFrom, weave, List.flatMap_map, List.map_flatMap]
  simp

theorem plain_groupsFrom (i : Nat) (lines : List Line) (patches : List Patch) :
    plain (groupsFrom i lines patches) = lines.map content := by
  induction lines generalizing i with
  | nil => rfl
  | cons line rest ih => rw [groupsFrom_cons, plain_cons, ih, List.map_cons]

theorem asideCount_groupsFrom (n i : Nat) (lines : List Line) (patches : List Patch) :
    asideCount n (groupsFrom i lines patches)
      = ((patchesFrom i (lines.take n) patches).map (·.block.length)).sum := by
  induction lines generalizing n i with
  | nil => cases n <;> rfl
  | cons line rest ih =>
    cases n with
    | zero => rfl
    | succ n =>
      rw [groupsFrom_cons, asideCount_succ_cons, ih, List.take_succ_cons, patchesFrom_cons,
        List.map_append, List.sum_append, List.length_map, List.length_flatMap]

/-- What stands above line number `j` comes from the blocks that are woven in there. -/
theorem exists_patch_of_getElem?_groupsFrom {i j : Nat} {lines : List Line} {patches : List Patch}
    {g : List Line × Line} (hg : (groupsFrom i lines patches)[j]? = some g) {x : Line}
    (hx : x ∈ g.1) :
    ∃ p ∈ patches, ∃ y ∈ p.block, ∃ line, lines[j]? = some line ∧ p.anchor = i + j
      ∧ x = content y ∧ g.2 = content line := by
  rw [groupsFrom, List.getElem?_map, List.getElem?_zipIdx] at hg
  obtain ⟨⟨line, i'⟩, hi, rfl⟩ := Option.map_eq_some_iff.1 hg
  obtain ⟨line', hline, hij⟩ := Option.map_eq_some_iff.1 hi
  obtain ⟨rfl, rfl⟩ := Prod.mk.inj hij
  obtain ⟨y, hblocks, rfl⟩ := List.mem_map.1 hx
  obtain ⟨p, hfilter, hy⟩ := List.mem_flatMap.1 hblocks
  obtain ⟨hpatch, hanchor⟩ := List.mem_filter.1 hfilter
  exact ⟨p, hpatch, y, hy, line', hline, beq_iff_eq.1 hanchor, rfl, rfl⟩

/-! ### Units of a woven text -/

/-- Blocks that stand above the first lines of units are invisible to segmentation. -/
theorem segment_weave (o : SegmentOptions) (file : String) {lines : List Line}
    {patches : List Patch} (hlines : AreLines lines) (hp : ∀ p ∈ patches, IsWritten l p.block)
    (habove : ∀ p ∈ patches, ∃ a, p.block = blockAbove l lines p.anchor a)
    (hstarts : ∀ p ∈ patches, ∃ u ∈ unitsFrom o file l [] 0 0 (lines.map content),
      u.range.start = p.anchor) :
    segment o (String.ofList (weave lines patches).flatten) file l
      = (unitsFrom o file l [] 0 0 (lines.map content)).map fun u =>
        u.movedDown (insertedLines patches u.range.start) := by
  have hasides : HaveAsides l (groupsFrom 0 lines patches) := by
    intro g hg x hx
    obtain ⟨j, hj⟩ := List.getElem?_of_mem hg
    obtain ⟨p, hpatch, y, hy, line, hline, hanchor, rfl, hcontent⟩ :=
      exists_patch_of_getElem?_groupsFrom hj hx
    obtain ⟨a, hblock⟩ := habove p hpatch
    obtain ⟨u, hu, hstart⟩ := hstarts p hpatch
    obtain ⟨line', h, hline', hheader, -⟩ := line_of_mem_unitsFrom hu
    rw [Nat.zero_add] at hanchor
    obtain rfl : line' = line := by
      rw [hstart, hanchor, hline] at hline'
      exact (Option.some.inj hline').symm
    have hisLine := hlines.isLine line' (List.mem_of_getElem? hline)
    have hvisible := allBlank_of_content (not_opensNothing hheader).1
    rw [hcontent]
    exact isAside_content (hanchor ▸ hline) hisLine hvisible (hblock ▸ hy)
  have hgroups : (groupsFrom 0 lines patches).AsidesAbove
      (unitsFrom o file l [] 0 0 (plain (groupsFrom 0 lines patches))) 0 := by
    intro j g hg hne
    obtain ⟨x, hx⟩ := List.exists_mem_of_ne_nil _ hne
    obtain ⟨p, hpatch, -, -, -, -, hanchor, -⟩ := exists_patch_of_getElem?_groupsFrom hg hx
    obtain ⟨u, hu, hstart⟩ := hstarts p hpatch
    rw [plain_groupsFrom]
    exact ⟨u, hu, hstart.trans hanchor⟩
  have hfull := unitsFrom_full hasides [] 0 0 0 hgroups
  rw [full_groupsFrom, plain_groupsFrom] at hfull
  rw [segment, linesOf, contents, String.toList_ofList, splitLines_weave hlines hp]
  refine hfull.trans (List.map_congr_left fun u hu => ?_)
  rw [Nat.zero_add, Nat.sub_zero, asideCount_groupsFrom,
    insertedLines_eq (start_lt_of_mem_unitsFrom hu)]

/-! ### Units of a synchronized text -/

/-- The units of a text start where units start without its blocks as well. -/
def StartsAgree (o : SegmentOptions) (file : String) (l : Language) (text : String) : Prop :=
  ∀ u ∈ segment o text file l, ∃ v ∈ segment o (strip l text).text file l,
    v.range.start = (strip l text).shifted u.range.start

variable {o : SegmentOptions} {text file : String}

theorem startsAgree_of_removed_eq_nil (h : (strip l text).removed = []) :
    StartsAgree o file l text := by
  intro u hu
  rw [text_strip_of_removed_eq_nil h, shifted_of_removed_eq_nil h]
  exact ⟨u, hu, rfl⟩

theorem segment_strip : segment o (strip l text).text file l
    = unitsFrom o file l [] 0 0 ((strip l text).lines.map content) := by
  rw [segment, linesOf, contents, splitLines_strip]

/-- The units of a synchronized text are those of the text without blocks, each moved down by the
block lines at or above it, if no unit started on account of an old block. -/
theorem StartsAgree.units_synchronize (h : StartsAgree o file l text) (lookback : Nat)
    (annot : CodeUnit → Option Annotation) :
    let units := (segment o text file l).map (·.annotatedBy annot)
    segment o (synchronize lookback text l units).text file l
      = (segment o (strip l text).text file l).map fun u => u.movedDown
        (insertedLines (placeAll lookback l (strip l text) units).patches u.range.start) := by
  intro units
  have hsound := isSound_placeAll (l := l) lookback (areLines_strip l text).isLine units
  have hpatch : ∀ p ∈ (placeAll lookback l (strip l text) units).patches,
      ∃ u ∈ segment o text file l, ∃ a,
        p = ownPatch l (strip l text) (u.annotatedBy annot, a) := by
    intro p hp
    rw [(placeAll_own lookback (haveOwnLines_segment o text file l annot)).1,
      annotatedUnits_eq (pairwise_start_annotatedBy o text file l annot)] at hp
    obtain ⟨x, hx, rfl⟩ := List.mem_map.1 hp
    obtain ⟨v, hv, hx⟩ := List.mem_filterMap.1 (List.mem_filter.1 hx).1
    obtain ⟨a, -, rfl⟩ := Option.map_eq_some_iff.1 hx
    obtain ⟨u, hu, rfl⟩ := List.mem_map.1 hv
    exact ⟨u, hu, a, rfl⟩
  rw [segment_strip]
  refine segment_weave o file (areLines_strip l text) hsound.blocks (fun p hp => ?_) fun p hp => ?_
  · obtain ⟨u, -, a, rfl⟩ := hpatch p hp
    exact ⟨a, rfl⟩
  · obtain ⟨u, hu, a, rfl⟩ := hpatch p hp
    rw [← segment_strip]
    exact h u hu

/-- Inserted blocks are invisible to segmentation. In a text without blocks, whichever of its units
are annotated, segmenting the synchronized text gives the same units in the same order, each with
its range and the line in its identifier moved down by the block lines that were inserted at or
above its start. -/
theorem segment_synchronize (o : SegmentOptions) (lookback : Nat) (text file : String)
    (l : Language) (annot : CodeUnit → Option Annotation) (h : (strip l text).removed = []) :
    let units := (segment o text file l).map (·.annotatedBy annot)
    segment o (synchronize lookback text l units).text file l
      = (segment o text file l).map fun u => u.movedDown
        (insertedLines (placeAll lookback l (strip l text) units).patches u.range.start) := by
  have hstarts : StartsAgree o file l text := startsAgree_of_removed_eq_nil h
  have hall := hstarts.units_synchronize lookback annot
  rw [text_strip_of_removed_eq_nil h] at hall
  exact hall

/-- A definition in another one stays in its body. -/
theorem segment_synchronize_nested :
    let text := "def f(x):\n  def g(y):\n    return y\n  return g(x)\n"
    let units := (segment {} text "f.py" .python).map
      (·.annotatedBy fun u => some ⟨u.name, "", "", "", [], "", u.body⟩)
    (strip .python text).removed = []
      ∧ (segment {} (synchronize 10 text .python units).text "f.py" .python).map (·.body)
        = ["def f(x):\n  def g(y):\n    return y\n  return g(x)"] :=
  ⟨by decide +kernel, by
    rw [segment_synchronize {} 10 _ "f.py" .python
      (fun u => some ⟨u.name, "", "", "", [], "", u.body⟩) (by decide +kernel)]
    decide +kernel⟩

end Marginalia
