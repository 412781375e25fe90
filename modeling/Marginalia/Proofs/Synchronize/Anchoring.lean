import Marginalia.Proofs.Ordered
import Marginalia.Proofs.Segment
import Marginalia.Proofs.Synchronize.Placement

/-!
Setting units down where they were. A unit that segmentation has found in a text starts on a line of
code, which no block reaches, so it has its own definition line among the lines that stay, at its
old place less the removed lines above it. No other unit can claim that line before, and so every
annotation comes to stand directly above the definition that it was made for.
-/

namespace Marginalia

open Text

variable {l : Language} {lookback : Nat}

/-! ### Units on their own lines -/

/-- The unit with the annotation that is given for it, if one is. -/
def CodeUnit.annotatedBy (annot : CodeUnit → Option Annotation) (u : CodeUnit) : CodeUnit :=
  { u with annotation := annot u }

/-- Each unit has its own definition line among the lines that stay, one below the other. -/
structure HaveOwnLines (l : Language) (s : Stripped) (us : List (CodeUnit × Annotation)) :
    Prop where
  own : ∀ x ∈ us, ⟨x.1.name, s.shifted x.1.range.start⟩ ∈ anchorsFrom l 0 s.lines
  below : us.Pairwise fun x y => s.shifted x.1.range.start < s.shifted y.1.range.start

/-- The block of a unit above its own definition line. -/
def ownPatch (l : Language) (s : Stripped) (x : CodeUnit × Annotation) : Patch :=
  ⟨s.shifted x.1.range.start, blockAbove l s.lines (s.shifted x.1.range.start) x.2, x.1.id⟩

/-- Something that tells of a block stands above the own definition line of a unit. -/
def isMarked (lookback : Nat) (s : Stripped) (u : CodeUnit) : Bool :=
  hasSurvivingMark lookback s.lines (s.shifted u.range.start)

theorem hasSurvivingMark_iff {lines : List Line} {anchor : Nat} :
    hasSurvivingMark lookback lines anchor = true ↔ ∃ i line mark, i < anchor
      ∧ anchor ≤ i + lookback ∧ lines[i]? = some line ∧ mark ∈ survivingMarks
      ∧ occursIn mark.toList line = true := by
  simp only [hasSurvivingMark, List.any_eq_true]
  constructor
  · rintro ⟨line, hline, mark, hmark, hoccurs⟩
    obtain ⟨i, hi⟩ := List.getElem?_of_mem hline
    rw [List.getElem?_drop] at hi
    have hlt : anchor - lookback + i < anchor := by
      have hlt := (List.getElem?_eq_some_iff.1 hi).1
      rw [List.length_take] at hlt
      omega
    rw [List.getElem?_take_of_lt hlt] at hi
    exact ⟨_, line, mark, hlt, by omega, hi, hmark, hoccurs⟩
  · rintro ⟨i, line, mark, hi, hnear, hline, hmark, hoccurs⟩
    refine ⟨line, List.mem_of_getElem? (i := i - (anchor - lookback)) ?_, mark, hmark, hoccurs⟩
    rw [List.getElem?_drop, show anchor - lookback + (i - (anchor - lookback)) = i by omega,
      List.getElem?_take_of_lt hi, hline]

/-- Units that are free to take their own lines take them, whatever is placed before them. -/
theorem foldl_place_own (lookback : Nat) (s : Stripped) (us : List (CodeUnit × Annotation))
    (p : Placement)
    (hown : ∀ x ∈ us, ⟨x.1.name, s.shifted x.1.range.start⟩ ∈ p.free)
    (hbelow : us.Pairwise fun x y => s.shifted x.1.range.start < s.shifted y.1.range.start) :
    (us.foldl (fun p (u, a) => p.place lookback l s u a) p).patches
        = p.patches ++ (us.filter (!isMarked lookback s ·.1)).map (ownPatch l s)
      ∧ (us.foldl (fun p (u, a) => p.place lookback l s u a) p).skipped
        = p.skipped ++ (us.filter (isMarked lookback s ·.1)).map
          fun x => ⟨x.1.id, x.1.name, .alreadyAnnotated⟩ := by
  induction us generalizing p with
  | nil => simp
  | cons x us ih =>
    obtain ⟨u, a⟩ := x
    obtain ⟨habove, hbelow⟩ := List.pairwise_cons.1 hbelow
    have hclaim := claim?_of_mem (hown (u, a) (by simp))
    have hfree : ∀ y ∈ us, ⟨y.1.name, s.shifted y.1.range.start⟩
        ∈ p.free.filter (· != ⟨u.name, s.shifted u.range.start⟩) := by
      intro y hy
      have hne : s.shifted y.1.range.start ≠ s.shifted u.range.start :=
        Nat.ne_of_gt (habove y hy)
      exact List.mem_filter.2 ⟨hown y (List.mem_cons_of_mem _ hy), by simp [hne]⟩
    rw [List.foldl_cons]
    rcases place_cases (l := l) lookback s p u a with ⟨hnone, -⟩ | ⟨anchor, free, hsome, hplace⟩
    · exact absurd (hnone.symm.trans hclaim) (by simp)
    · obtain ⟨rfl, rfl⟩ := Prod.mk.inj (Option.some.inj (hsome.symm.trans hclaim))
      rcases hplace with ⟨hmark, hplace⟩ | ⟨hmark, hplace⟩
      · have hmarked : isMarked lookback s u = true := hmark
        have hrest := ih (p.place lookback l s u a) (by rw [hplace]; exact hfree) hbelow
        rw [hrest.1, hrest.2, hplace]
        simp [hmarked]
      · have hmarked : isMarked lookback s u = false := hmark
        have hrest := ih (p.place lookback l s u a) (by rw [hplace]; exact hfree) hbelow
        rw [hrest.1, hrest.2, hplace]
        simp [hmarked, ownPatch]

theorem placeAll_own (lookback : Nat) {s : Stripped} {units : List CodeUnit}
    (h : HaveOwnLines l s (annotatedUnits units)) :
    (placeAll lookback l s units).patches
        = ((annotatedUnits units).filter (!isMarked lookback s ·.1)).map (ownPatch l s)
      ∧ (placeAll lookback l s units).skipped
        = ((annotatedUnits units).filter (isMarked lookback s ·.1)).map
          fun x => ⟨x.1.id, x.1.name, .alreadyAnnotated⟩ := by
  have hfold := foldl_place_own (l := l) lookback s (annotatedUnits units)
    ⟨anchorsFrom l 0 s.lines, [], []⟩ h.own h.below
  rw [List.nil_append, List.nil_append] at hfold
  exact hfold

/-! ### Units in their order -/

/-- The annotated units among units that start one below the other. -/
theorem annotatedUnits_eq {units : List CodeUnit}
    (h : units.Pairwise fun u v => u.range.start < v.range.start) :
    annotatedUnits units = units.filterMap fun u => u.annotation.map (u, ·) := by
  refine sortBy_eq_self (List.pairwise_filterMap.2 (h.imp fun {u v} huv x hx y hy => ?_))
  obtain ⟨a, -, rfl⟩ := Option.map_eq_some_iff.1 hx
  obtain ⟨b, -, rfl⟩ := Option.map_eq_some_iff.1 hy
  simpa using Nat.le_of_lt huv

theorem pairwise_start_annotatedBy (o : SegmentOptions) (text file : String) (l : Language)
    (annot : CodeUnit → Option Annotation) :
    ((segment o text file l).map (·.annotatedBy annot)).Pairwise
      fun u v => u.range.start < v.range.start :=
  List.pairwise_map.2 (pairwise_start_unitsFrom [] 0 0 (linesOf text))

/-! ### Units of the text -/

/-- The own line of a unit that segmentation has found: it stays, and defines what the unit is
called. -/
theorem own_line_of_mem_segment {o : SegmentOptions} {text file : String} {u : CodeUnit}
    (hu : u ∈ segment o text file l) :
    ∃ ps line qs h, pieces l (splitLines text.toList) = ps ++ .line line :: qs
      ∧ (ps.flatMap Piece.lines).length = u.range.start
      ∧ (splitLines text.toList)[u.range.start]? = some line
      ∧ Header.ofLine? l (withoutTerminator line) = some h ∧ h.name = u.name := by
  obtain ⟨line, h, hline, hheader, hname⟩ := line_of_mem_unitsFrom hu
  have hisLine := (areLines_splitLines text.toList).isLine line (List.mem_of_getElem? hline)
  obtain ⟨ps, qs, hps, hlen⟩ := pieces_at_code hline (kind_of_header hisLine hheader)
  rw [Header.ofLine?_content hisLine] at hheader
  exact ⟨ps, line, qs, h, hps, hlen, hline, hheader, hname.symm⟩

theorem own_anchor_of_mem_segment {o : SegmentOptions} {text file : String} {u : CodeUnit}
    (hu : u ∈ segment o text file l) :
    ⟨u.name, (strip l text).shifted u.range.start⟩ ∈ anchorsFrom l 0 (strip l text).lines := by
  obtain ⟨ps, line, qs, h, hps, hlen, -, hheader, hname⟩ := own_line_of_mem_segment hu
  exact mem_anchorsFrom.2 ⟨line, h, hlen ▸ getElem?_shifted hps, hheader, hname⟩

/-- Lines that stay keep their order. -/
theorem shifted_lt_shifted {text : String} {ps qs ps' qs' : List Piece} {line line' : Line}
    (h : pieces l (splitLines text.toList) = ps ++ .line line :: qs)
    (h' : pieces l (splitLines text.toList) = ps' ++ .line line' :: qs')
    (hlt : (ps.flatMap Piece.lines).length < (ps'.flatMap Piece.lines).length) :
    (strip l text).shifted (ps.flatMap Piece.lines).length
      < (strip l text).shifted (ps'.flatMap Piece.lines).length := by
  rw [shifted_eq h, shifted_eq h']
  rw [h] at h'
  rcases List.append_eq_append_iff.1 h' with ⟨more, rfl, hmore⟩ | ⟨more, rfl, -⟩
  · cases more with
    | nil => simp at hlt
    | cons p more =>
      obtain ⟨rfl, -⟩ := List.cons.inj hmore
      simp [keptLines_append, keptLines_line]
  · rw [List.flatMap_append, List.length_append] at hlt
    omega

/-- The annotated units of a text have their own lines in it. -/
theorem haveOwnLines_segment (o : SegmentOptions) (text file : String) (l : Language)
    (annot : CodeUnit → Option Annotation) :
    HaveOwnLines l (strip l text)
      (annotatedUnits ((segment o text file l).map (·.annotatedBy annot))) := by
  rw [annotatedUnits_eq (pairwise_start_annotatedBy o text file l annot), List.filterMap_map]
  refine ⟨fun x hx => ?_, List.pairwise_filterMap.2 ?_⟩
  · obtain ⟨u, hu, hx⟩ := List.mem_filterMap.1 hx
    obtain ⟨a, -, rfl⟩ := Option.map_eq_some_iff.1 hx
    have hown := own_anchor_of_mem_segment hu
    exact hown
  · refine List.Pairwise.imp_of_mem (fun {u v} hu hv huv x hx y hy => ?_)
      (pairwise_start_unitsFrom [] 0 0 (linesOf text))
    obtain ⟨a, -, rfl⟩ := Option.map_eq_some_iff.1 hx
    obtain ⟨b, -, rfl⟩ := Option.map_eq_some_iff.1 hy
    obtain ⟨ps, line, qs, h, hps, hlen, -⟩ := own_line_of_mem_segment hu
    obtain ⟨ps', line', qs', h', hps', hlen', -⟩ := own_line_of_mem_segment hv
    change (strip l text).shifted u.range.start < (strip l text).shifted v.range.start
    rw [← hlen, ← hlen'] at huv ⊢
    exact shifted_lt_shifted hps hps' huv

/-! ### Every annotation above its own definition -/

theorem map_filter_annotatedUnits {α : Type} {units : List CodeUnit}
    (h : units.Pairwise fun u v => u.range.start < v.range.start) (keep : CodeUnit → Bool)
    (g : CodeUnit → α) :
    ((annotatedUnits units).filter fun x => keep x.1).map (fun x => g x.1)
      = ((units.filter fun u => u.annotation.isSome).filter keep).map g := by
  rw [annotatedUnits_eq h]
  clear h
  induction units with
  | nil => rfl
  | cons u units ih =>
    cases hu : u.annotation with
    | none => simpa [hu] using ih
    | some a => cases hk : keep u <;> simpa [hu, hk] using ih

theorem inserted_synchronize {text : String} {units : List CodeUnit}
    (h : (placeAll lookback l (strip l text) units).patches.Pairwise
      fun p q => p.anchor < q.anchor) :
    (synchronize lookback text l units).inserted
      = (placeAll lookback l (strip l text) units).patches.map (·.id) := by
  rw [synchronize]
  dsimp only
  rw [sortBy_eq_self (h.imp fun hlt => by simpa using Nat.le_of_lt hlt)]

theorem pairwise_anchor_placeAll (lookback : Nat) {s : Stripped} {units : List CodeUnit}
    (hown : HaveOwnLines l s (annotatedUnits units)) :
    (placeAll lookback l s units).patches.Pairwise fun p q => p.anchor < q.anchor := by
  rw [(placeAll_own lookback hown).1]
  exact List.pairwise_map.2 (hown.below.filter _)

theorem readBlock_blockAbove (lines : List Line) (anchor : Nat) (a : Annotation) :
    readBlock l (blockAbove l lines anchor a) = .ok (.delimited, a) :=
  readBlock_blockLines a isBlank_leadingSpace (isNewline_newlineFor _ _)

/-- What stands above a line are the annotations of the units that are set down there. -/
theorem isAnnotatedIn_synchronize_iff {text : String} {units : List CodeUnit}
    (hstarts : units.Pairwise fun u v => u.range.start < v.range.start)
    (hown : HaveOwnLines l (strip l text) (annotatedUnits units)) {i : Nat} {a : Annotation} :
    IsAnnotatedIn l (synchronize lookback text l units).text (strip l text).lines i a
      ↔ ∃ u ∈ units, u.annotation = some a ∧ (strip l text).shifted u.range.start = i
        ∧ isMarked lookback (strip l text) u = false := by
  have hsound := isSound_placeAll (l := l) lookback (areLines_strip l text).isLine units
  have hweave := isAnnotatedIn_weave_iff (areLines_strip l text) isOpener_strip hsound.blocks
    hsound.anchors ((pairwise_anchor_placeAll lookback hown).imp Nat.ne_of_lt) (i := i) (a := a)
  refine hweave.trans ?_
  rw [(placeAll_own lookback hown).1, annotatedUnits_eq hstarts]
  constructor
  · rintro ⟨p, hmem, hanchor, hread⟩
    obtain ⟨x, hx, rfl⟩ := List.mem_map.1 hmem
    obtain ⟨hx, hmark⟩ := List.mem_filter.1 hx
    obtain ⟨u, hu, hx⟩ := List.mem_filterMap.1 hx
    obtain ⟨b, hb, rfl⟩ := Option.map_eq_some_iff.1 hx
    rw [ownPatch, readBlock_blockAbove] at hread
    obtain rfl := (Prod.mk.inj (Except.ok.inj hread)).2
    exact ⟨u, hu, hb, hanchor, by simpa using hmark⟩
  · rintro ⟨u, hu, ha, rfl, hmark⟩
    refine ⟨ownPatch l (strip l text) (u, a), List.mem_map.2 ⟨(u, a), ?_, rfl⟩, rfl,
      readBlock_blockAbove _ _ a⟩
    exact List.mem_filter.2 ⟨List.mem_filterMap.2 ⟨u, hu, by rw [ha, Option.map_some]⟩,
      by simpa using hmark⟩

/-- Synchronizing a text with units that segmentation has found in it puts every annotation where it
belongs. No unit is left without a place: an annotated unit is skipped exactly if one of the lines
looked back at, above its definition among the lines that stay, tells of a block; else it is
inserted, and the lines directly above its own definition are one block that reads back as its
annotation. The definition is found where it was, less the removed lines above it. -/
theorem synchronize_reaches_own_lines (o : SegmentOptions) (lookback : Nat) (text file : String)
    (l : Language) (annot : CodeUnit → Option Annotation) :
    let s := strip l text
    let units := (segment o text file l).map (·.annotatedBy annot)
    let out := synchronize lookback text l units
    let annotated := units.filter fun u => u.annotation.isSome
    out.skipped = (annotated.filter (isMarked lookback s)).map
        (fun u => ⟨u.id, u.name, .alreadyAnnotated⟩)
      ∧ out.inserted = (annotated.filter (!isMarked lookback s ·)).map (·.id)
      ∧ ∀ u ∈ units,
        s.shifted u.range.start
            + ((s.removed.filter (·.start < u.range.start)).map (·.length)).sum = u.range.start
          ∧ (∃ line, (splitLines text.toList)[u.range.start]? = some line
            ∧ s.lines[s.shifted u.range.start]? = some line)
          ∧ (isMarked lookback s u = true ↔ ∃ i line mark, i < s.shifted u.range.start
            ∧ s.shifted u.range.start ≤ i + lookback ∧ s.lines[i]? = some line
            ∧ mark ∈ survivingMarks ∧ occursIn mark.toList line = true)
          ∧ ∀ a, u.annotation = some a → isMarked lookback s u = false →
            IsAnnotatedIn l out.text s.lines (s.shifted u.range.start) a := by
  intro s units out annotated
  have hstarts := pairwise_start_annotatedBy o text file l annot
  have hown := haveOwnLines_segment o text file l annot
  obtain ⟨hpatches, hskipped⟩ := placeAll_own lookback hown
  refine ⟨?_, ?_, fun u hu => ?_⟩
  · exact hskipped.trans (map_filter_annotatedUnits hstarts (isMarked lookback s)
      fun u => (⟨u.id, u.name, .alreadyAnnotated⟩ : SkippedUnit))
  · refine Eq.trans ?_ (map_filter_annotatedUnits hstarts (!isMarked lookback s ·) (·.id))
    rw [inserted_synchronize (pairwise_anchor_placeAll lookback hown), hpatches, List.map_map]
    rfl
  · obtain ⟨v, hv, rfl⟩ := List.mem_map.1 hu
    obtain ⟨ps, line, qs, -, hps, hlen, hline, -⟩ := own_line_of_mem_segment hv
    refine ⟨?_, ⟨line, hline, ?_⟩, hasSurvivingMark_iff, fun a ha hmark =>
      (isAnnotatedIn_synchronize_iff hstarts hown).2 ⟨_, hu, ha, rfl, hmark⟩⟩
    · have hplace := shifted_add_removed hps
      rw [hlen] at hplace
      exact hplace
    · have hplace := getElem?_shifted hps
      rw [hlen] at hplace
      exact hplace

/-- A definition that has a namesake in its body keeps its own line. -/
theorem synchronize_reaches_own_lines_nested :
    let text := "def f(x):\n  def f(y):\n    return y\n  return f(x)\n"
    let units := (segment {} text "f.py" .python).map
      (·.annotatedBy fun u => some ⟨u.name, "", "", "", [], "", u.body⟩)
    ∃ u ∈ units, isMarked 10 (strip .python text) u = false
      ∧ ∃ a, u.annotation = some a ∧ IsAnnotatedIn .python
        (synchronize 10 text .python units).text (strip .python text).lines 0 a := by
  intro text units
  obtain ⟨u, hu, hmark, hplace, a, ha⟩ : ∃ u ∈ units, isMarked 10 (strip .python text) u = false
      ∧ (strip .python text).shifted u.range.start = 0 ∧ ∃ a, u.annotation = some a := by
    simp only [← Option.isSome_iff_exists]
    decide +kernel
  have hown := synchronize_reaches_own_lines {} 10 text "f.py" .python
    (fun u => some ⟨u.name, "", "", "", [], "", u.body⟩)
  exact ⟨u, hu, hmark, a, ha, hplace ▸ (hown.2.2 u hu).2.2.2 a ha hmark⟩

end Marginalia
