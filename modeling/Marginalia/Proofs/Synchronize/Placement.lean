import Mathlib.Data.List.GetD
import Marginalia.Proofs.Synchronize.Weave

/-!
Placing blocks. Whatever units are placed, a block is only put above a line that stays, and in the
layout that is written; so synchronizing changes nothing but blocks. A unit whose own definition
line is still free gets that line, since no other anchor is as near.
-/

namespace Marginalia

open Text

variable {l : Language}

/-! ### Anchors -/

theorem mem_anchorsFrom {lines : List Line} {a : Anchor} :
    a ∈ anchorsFrom l 0 lines ↔ ∃ line h, lines[a.line]? = some line
      ∧ Header.ofLine? l (withoutTerminator line) = some h ∧ h.name = a.name := by
  constructor
  · intro ha
    obtain ⟨⟨line, i⟩, hmem, ha⟩ := List.mem_filterMap.1 ha
    obtain ⟨h, hh, rfl⟩ := Option.map_eq_some_iff.1 ha
    exact ⟨line, h, List.mem_zipIdx_iff_getElem?.1 hmem, hh, rfl⟩
  · rintro ⟨line, h, hline, hh, hname⟩
    refine List.mem_filterMap.2 ⟨(line, a.line), List.mem_zipIdx_iff_getElem?.2 hline, ?_⟩
    simp only [hh, Option.map_some, hname]

/-- The first anchor is at least as near to `hint`, and the upper one if both are equally near. -/
def Anchor.IsNearer (hint : Nat) (a b : Anchor) : Prop :=
  distance a.line hint < distance b.line hint
    ∨ distance a.line hint = distance b.line hint ∧ a.line ≤ b.line

theorem Anchor.IsNearer.refl (hint : Nat) (a : Anchor) : a.IsNearer hint a :=
  .inr ⟨rfl, Nat.le_refl _⟩

theorem Anchor.IsNearer.trans {hint : Nat} {a b c : Anchor} (h : a.IsNearer hint b)
    (h' : b.IsNearer hint c) : a.IsNearer hint c := by
  simp only [IsNearer] at *
  omega

theorem nearer_spec (hint : Nat) (a b : Anchor) : (nearer hint a b = a ∨ nearer hint a b = b)
    ∧ (nearer hint a b).IsNearer hint a ∧ (nearer hint a b).IsNearer hint b := by
  unfold nearer
  dsimp only
  split
  · next h => simp at h; exact ⟨.inl rfl, .refl hint a, h⟩
  · next h =>
    simp at h
    refine ⟨.inr rfl, ?_, .refl hint b⟩
    simp only [Anchor.IsNearer]
    omega

theorem foldl_nearer_spec (hint : Nat) (free : List Anchor) (b : Anchor) :
    ∃ best, free.foldl
        (fun best a => some (match best with | none => a | some b => nearer hint b a)) (some b)
        = some best
      ∧ best ∈ b :: free ∧ ∀ a ∈ b :: free, best.IsNearer hint a := by
  induction free generalizing b with
  | nil => exact ⟨b, rfl, by simp, by simpa using .refl hint b⟩
  | cons c free ih =>
    obtain ⟨best, hbest, hmem, hle⟩ := ih (nearer hint b c)
    obtain ⟨hnear, hb, hc⟩ := nearer_spec hint b c
    have hle' := hle _ List.mem_cons_self
    refine ⟨best, hbest, ?_, ?_⟩
    · rcases List.mem_cons.1 hmem with rfl | hmem
      · rcases hnear with h | h <;> rw [h] <;> simp
      · exact List.mem_cons_of_mem _ (List.mem_cons_of_mem _ hmem)
    · intro a ha
      rcases List.mem_cons.1 ha with rfl | ha
      · exact hle'.trans hb
      · rcases List.mem_cons.1 ha with rfl | ha
        · exact hle'.trans hc
        · exact hle a (List.mem_cons_of_mem _ ha)

/-- The nearest anchor of a name has the name, and none of the name is nearer. -/
theorem nearest?_spec {name : String} {hint : Nat} {free : List Anchor} {best : Anchor}
    (h : nearest? name hint free = some best) : best ∈ free ∧ best.name = name
      ∧ ∀ a ∈ free, a.name = name → best.IsNearer hint a := by
  have hmem : ∀ a, a ∈ free.filter (·.name == name) ↔ a ∈ free ∧ a.name = name := fun a => by
    rw [List.mem_filter, beq_iff_eq]
  rw [nearest?] at h
  generalize free.filter (·.name == name) = named at h hmem
  cases named with
  | nil => simp at h
  | cons a named =>
    obtain ⟨best', hbest, hin, hle⟩ := foldl_nearer_spec hint named a
    obtain rfl := Option.some.inj (h.symm.trans hbest)
    obtain ⟨hfree, hname⟩ := (hmem _).1 hin
    exact ⟨hfree, hname, fun a ha hn => hle a ((hmem a).2 ⟨ha, hn⟩)⟩

theorem nearest?_ne_none {name : String} {hint : Nat} {free : List Anchor} {a : Anchor}
    (ha : a ∈ free) (hn : a.name = name) : nearest? name hint free ≠ none := by
  have hmem : a ∈ free.filter (·.name == name) := List.mem_filter.2 ⟨ha, beq_iff_eq.2 hn⟩
  rw [nearest?]
  cases hnamed : free.filter (·.name == name) with
  | nil => exact absurd (hnamed ▸ hmem) List.not_mem_nil
  | cons b named =>
    obtain ⟨best, hbest, -⟩ := foldl_nearer_spec hint named b
    exact fun hnone => absurd (hnone.symm.trans hbest) (by simp)

/-- What is claimed was free and is free no more. -/
theorem claim?_spec {name : String} {hint line : Nat} {free rest : List Anchor}
    (h : claim? name hint free = some (line, rest)) :
    ⟨name, line⟩ ∈ free ∧ rest = free.filter (· != ⟨name, line⟩) := by
  obtain ⟨best, hbest, he⟩ := Option.map_eq_some_iff.1 h
  obtain ⟨hmem, rfl, -⟩ := nearest?_spec hbest
  cases he
  exact ⟨hmem, rfl⟩

/-- A free anchor of the name at the very place is the one that is claimed. -/
theorem claim?_of_mem {name : String} {hint : Nat} {free : List Anchor}
    (h : ⟨name, hint⟩ ∈ free) :
    claim? name hint free = some (hint, free.filter (· != ⟨name, hint⟩)) := by
  cases hbest : nearest? name hint free with
  | none => exact absurd hbest (nearest?_ne_none h rfl)
  | some best =>
    obtain ⟨-, rfl, hle⟩ := nearest?_spec hbest
    have hle := hle _ h rfl
    have hline : best.line = hint := by
      simp only [Anchor.IsNearer, distance] at hle
      omega
    subst hline
    rw [claim?, hbest, Option.map_some]

/-! ### One unit -/

/-- The block that is put above a line for an annotation. -/
def blockAbove (l : Language) (lines : List Line) (anchor : Nat) (a : Annotation) : List Line :=
  blockLines a l (leadingSpace (lines.getD anchor []))
    (newlineFor lines (lines.getD anchor []))

theorem isBlank_leadingSpace {line : Line} : ∀ c ∈ leadingSpace line, isBlank c :=
  fun _ hc => List.mem_takeWhile_imp hc

theorem isNewline_newlineFor (lines : List Line) (line : Line) :
    IsNewline (newlineFor lines line) := by
  have hterminator : ∀ {x : Line} {newline : List Char}, terminator? x = some newline →
      IsNewline newline := by
    intro x newline h
    unfold terminator? at h
    split at h
    · exact .inr (Option.some.inj h).symm
    · split at h
      · exact .inl (Option.some.inj h).symm
      · exact absurd h (by simp)
  rw [newlineFor]
  cases hline : terminator? line with
  | some newline => exact hterminator hline
  | none =>
    rw [Option.orElse_none]
    cases hlines : lines.findSome? terminator? with
    | some newline =>
      obtain ⟨x, -, hx⟩ := List.exists_of_findSome?_eq_some hlines
      exact hterminator hx
    | none => exact .inl rfl

theorem isWritten_blockAbove {lines : List Line} (hlines : ∀ line ∈ lines, IsLine line)
    {anchor : Nat} (h : anchor < lines.length) (a : Annotation) :
    IsWritten l (blockAbove l lines anchor a) := by
  have hmem : lines.getD anchor [] ∈ lines := by
    rw [List.getD_eq_getElem _ _ h]
    exact List.getElem_mem h
  refine ⟨a, _, _, rfl, isBlank_leadingSpace, fun hc => ?_, isNewline_newlineFor _ _⟩
  obtain ⟨returns, hcontent, -⟩ := content_eq_withoutTerminator_append (hlines _ hmem)
  refine not_mem_content (hlines _ hmem) (hcontent ▸ List.mem_append_left _ ?_)
  exact (List.takeWhile_sublist _).subset hc

/-- What placing a unit can do. -/
theorem place_cases (lookback : Nat) (s : Stripped) (p : Placement) (u : CodeUnit)
    (a : Annotation) :
    (claim? u.name (s.shifted u.range.start) p.free = none
      ∧ p.place lookback l s u a = { p with skipped := p.skipped ++ [⟨u.id, u.name, .notFound⟩] })
    ∨ ∃ anchor free, claim? u.name (s.shifted u.range.start) p.free = some (anchor, free)
      ∧ (hasSurvivingMark lookback s.lines anchor = true
          ∧ p.place lookback l s u a = { p with
              free := free, skipped := p.skipped ++ [⟨u.id, u.name, .alreadyAnnotated⟩] }
        ∨ hasSurvivingMark lookback s.lines anchor = false
          ∧ p.place lookback l s u a = { p with
              free := free,
              patches := p.patches ++ [⟨anchor, blockAbove l s.lines anchor a, u.id⟩] }) := by
  unfold Placement.place
  cases hclaim : claim? u.name (s.shifted u.range.start) p.free with
  | none => exact .inl ⟨rfl, rfl⟩
  | some claimed =>
    obtain ⟨anchor, free⟩ := claimed
    refine .inr ⟨anchor, free, rfl, ?_⟩
    cases hmark : hasSurvivingMark lookback s.lines anchor with
    | true => exact .inl ⟨rfl, by simp [hmark]⟩
    | false => exact .inr ⟨rfl, by simp [hmark, blockAbove]⟩

/-! ### Any units -/

/-- What has been placed can be woven in: the anchors are lines that stay, and the blocks are
written ones. -/
structure Placement.IsSound (l : Language) (s : Stripped) (p : Placement) : Prop where
  free : ∀ a ∈ p.free, a.line < s.lines.length
  anchors : ∀ q ∈ p.patches, q.anchor < s.lines.length
  blocks : ∀ q ∈ p.patches, IsWritten l q.block

theorem Placement.IsSound.place {lookback : Nat} {s : Stripped} {p : Placement}
    (hlines : ∀ line ∈ s.lines, IsLine line) (h : p.IsSound l s) (u : CodeUnit) (a : Annotation) :
    (p.place lookback l s u a).IsSound l s := by
  rcases place_cases lookback s p u a with ⟨-, hplace⟩ | ⟨anchor, free, hclaim, hplace⟩
  · rw [hplace]
    exact ⟨h.free, h.anchors, h.blocks⟩
  · obtain ⟨hmem, rfl⟩ := claim?_spec hclaim
    have hanchor : anchor < s.lines.length := h.free _ hmem
    have hfree : ∀ b ∈ p.free.filter (· != ⟨u.name, anchor⟩), b.line < s.lines.length :=
      fun b hb => h.free b (List.mem_filter.1 hb).1
    rcases hplace with ⟨-, hplace⟩ | ⟨-, hplace⟩
    · rw [hplace]
      exact ⟨hfree, h.anchors, h.blocks⟩
    · rw [hplace]
      refine ⟨hfree, fun q hq => ?_, fun q hq => ?_⟩
      · rcases List.mem_append.1 hq with hq | hq
        · exact h.anchors q hq
        · rw [List.mem_singleton.1 hq]
          exact hanchor
      · rcases List.mem_append.1 hq with hq | hq
        · exact h.blocks q hq
        · rw [List.mem_singleton.1 hq]
          exact isWritten_blockAbove hlines hanchor a

/-- Placing units, whatever they are, leads to what can be woven in. -/
theorem isSound_placeAll (lookback : Nat) {s : Stripped} (hlines : ∀ line ∈ s.lines, IsLine line)
    (units : List CodeUnit) : (placeAll lookback l s units).IsSound l s := by
  have hfold : ∀ (us : List (CodeUnit × Annotation)) (p : Placement), p.IsSound l s →
      (us.foldl (fun p x => p.place lookback l s x.1 x.2) p).IsSound l s := by
    intro us
    induction us with
    | nil => exact fun p h => h
    | cons x us ih => exact fun p h => ih _ (h.place hlines x.1 x.2)
  refine hfold _ _ ⟨fun a ha => ?_, by simp, by simp⟩
  obtain ⟨line, -, hline, -⟩ := mem_anchorsFrom.1 ha
  exact (List.getElem?_eq_some_iff.1 hline).1

/-! ### Synchronizing any units -/

/-- The text that synchronizing makes, without its blocks. -/
theorem strip_synchronize (lookback : Nat) (text : String) (l : Language) (units : List CodeUnit) :
    strip l (synchronize lookback text l units).text
      = ⟨(strip l text).lines, removedFrom 0 (wovenPieces 0 (strip l text).lines
          (placeAll lookback l (strip l text) units).patches)⟩ :=
  strip_weave (areLines_strip l text) isOpener_strip
    (isSound_placeAll lookback (areLines_strip l text).isLine units).blocks

theorem lines_strip_synchronize (lookback : Nat) (text : String) (l : Language)
    (units : List CodeUnit) :
    (strip l (synchronize lookback text l units).text).lines = (strip l text).lines := by
  rw [strip_synchronize]

theorem text_strip_synchronize (lookback : Nat) (text : String) (l : Language)
    (units : List CodeUnit) :
    (strip l (synchronize lookback text l units).text).text = (strip l text).text := by
  rw [Stripped.text, lines_strip_synchronize, ← Stripped.text]

/-- Synchronizing touches nothing outside of blocks, whatever units it is given: without its blocks
the new text has the lines of the old one without its blocks, and its blocks are as many as units
were inserted, all of the layout that is written. Where the old text has no block, taking the blocks
out of the new text gives the old one back. -/
theorem synchronize_preserves_lines (lookback : Nat) (text : String) (l : Language)
    (units : List CodeUnit) :
    (strip l (synchronize lookback text l units).text).lines = (strip l text).lines
      ∧ (strip l (synchronize lookback text l units).text).removed.map (·.format)
        = List.replicate (synchronize lookback text l units).inserted.length .delimited
      ∧ ((strip l text).removed = [] →
        (stripText (synchronize lookback text l units).text l).text = text) := by
  have hsound := isSound_placeAll (l := l) lookback (areLines_strip l text).isLine units
  have hstrip := strip_synchronize lookback text l units
  refine ⟨by rw [hstrip], ?_, fun hnone => ?_⟩
  · have hinserted : (synchronize lookback text l units).inserted.length
        = (placeAll lookback l (strip l text) units).patches.length := by
      simp only [synchronize, List.length_map]
      exact (sortBy_perm _ _).length_eq
    rw [hstrip, formats_removedFrom, formats_wovenPieces, length_patchesFrom hsound.anchors,
      hinserted]
  · rw [stripText]
    simp only [hstrip]
    exact text_strip_of_removed_eq_nil hnone

/-- Two units of one name that have gone astray, and only one definition for them. -/
theorem synchronize_preserves_lines_stale :
    let text := "def f(x):\n    return x\n"
    let unit : CodeUnit := ⟨⟨"old"⟩, "f.py", .python, none, "f", "f(x)", ⟨7, 9⟩, "", [], [], none,
      some ⟨"f", "", "", "", [], "", ""⟩, none⟩
    (strip .python text).removed = []
      ∧ (stripText (synchronize 10 text .python [unit, unit]).text .python).text = text :=
  ⟨by decide +kernel, (synchronize_preserves_lines 10 _ .python _).2.2 (by decide +kernel)⟩

end Marginalia
