import Mathlib.Data.List.Sort
import Marginalia.LocalRules
import Marginalia.Proofs.Synchronize.Resegmenting

/-!
Passes over a text. A pass cuts a text into units, annotates each and synchronizes the text with
them. What it writes depends on the lines that stay and on the annotations with their places among
these lines, so a second pass changes nothing exactly if it finds the same annotations on the same
lines. Blocks that a synchronization has written do not show in the units, and a pass over them is
settled. Older blocks may show: they are gone after the first pass, and with them what they did to
the units.
-/

namespace Marginalia

open Text

/-- One pass over a text, every unit annotated. -/
def annotatingPass (o : SegmentOptions) (lookback : Nat) (file : String) (l : Language)
    (f : CodeUnit → Annotation) (text : String) : SyncOutcome :=
  synchronize lookback text l
    ((segment o text file l).map (·.annotatedBy fun u => some (f u)))

/-- A second pass writes the text of the first one again, and reports no change. -/
def IsIdempotentAt (o : SegmentOptions) (lookback : Nat) (file : String) (l : Language)
    (f : CodeUnit → Annotation) (text : String) : Prop :=
  let first := annotatingPass o lookback file l f text
  let second := annotatingPass o lookback file l f first.text
  second.text = first.text ∧ second.changed = false

/-- The annotation of a unit is made of its name, its scope, its signature and its body alone. -/
def ReadsTextsAlone (f : CodeUnit → Annotation) : Prop :=
  ∀ u v : CodeUnit, u.name = v.name → u.scope = v.scope → u.signature = v.signature →
    u.body = v.body → f u = f v

/-- The annotations that a pass writes, each with the place of its unit among the lines that stay.
-/
def shownAnnotations (o : SegmentOptions) (lookback : Nat) (file : String) (l : Language)
    (f : CodeUnit → Annotation) (text : String) : List (Nat × Annotation) :=
  ((segment o text file l).filter (!isMarked lookback (strip l text) ·)).map
    fun u => ((strip l text).shifted u.range.start, f u)

variable {o : SegmentOptions} {lookback : Nat} {file : String} {l : Language}
  {f : CodeUnit → Annotation} {text : String}

theorem readsTextsAlone_annotation : ReadsTextsAlone LocalRules.annotation := by
  intro u v hname hscope hsignature hbody
  simp only [LocalRules.annotation, hname, hscope, hsignature, hbody]

theorem ReadsTextsAlone.movedDown (h : ReadsTextsAlone f) (u : CodeUnit) (k : Nat) :
    f (u.movedDown k) = f u := h _ u rfl rfl rfl rfl

/-! ### What a pass writes -/

theorem annotatedUnits_annotatedBy :
    annotatedUnits ((segment o text file l).map (·.annotatedBy fun u => some (f u)))
      = (segment o text file l).map fun u => (u.annotatedBy fun u => some (f u), f u) := by
  rw [annotatedUnits_eq (pairwise_start_annotatedBy o text file l _), List.filterMap_map]
  exact congrFun (List.filterMap_eq_map (f := fun u => (u.annotatedBy fun u => some (f u), f u))) _

theorem pairwise_shownAnnotations :
    (shownAnnotations o lookback file l f text).Pairwise fun x y => x.1 < y.1 := by
  have hbelow := (haveOwnLines_segment o text file l fun u => some (f u)).below
  rw [annotatedUnits_annotatedBy] at hbelow
  exact List.pairwise_map.2 ((List.pairwise_map.1 hbelow).filter _)

/-- What stands above the lines after a pass are the annotations that it shows. -/
theorem isAnnotatedIn_annotatingPass_iff {i : Nat} {a : Annotation} :
    IsAnnotatedIn l (annotatingPass o lookback file l f text).text (strip l text).lines i a
      ↔ (i, a) ∈ shownAnnotations o lookback file l f text := by
  refine (isAnnotatedIn_synchronize_iff (pairwise_start_annotatedBy o text file l _)
    (haveOwnLines_segment o text file l _)).trans ?_
  constructor
  · rintro ⟨u, hu, ha, rfl, hmark⟩
    obtain ⟨v, hv, rfl⟩ := List.mem_map.1 hu
    obtain rfl := Option.some.inj ha
    have hshown : isMarked lookback (strip l text) v = false := hmark
    exact List.mem_map.2 ⟨v, List.mem_filter.2 ⟨hv, by rw [hshown, Bool.not_false]⟩, rfl⟩
  · intro h
    obtain ⟨v, hv, hpair⟩ := List.mem_map.1 h
    obtain ⟨hv, hshown⟩ := List.mem_filter.1 hv
    obtain ⟨rfl, rfl⟩ := Prod.mk.inj hpair
    have hmark : isMarked lookback (strip l text) v = false := by simpa using hshown
    exact ⟨_, List.mem_map_of_mem hv, rfl, rfl, hmark⟩

/-- Identifiers of patches do not show in the text. -/
theorem weave_congr {lines : List Line} {patches patches' : List Patch}
    (h : patches.map (fun p => (p.anchor, p.block)) = patches'.map fun p => (p.anchor, p.block)) :
    weave lines patches = weave lines patches' := by
  have hblocks : ∀ (i : Nat) (ps : List Patch), (ps.filter (·.anchor == i)).flatMap (·.block)
      = ((ps.map fun p => (p.anchor, p.block)).filter (·.1 == i)).flatMap (·.2) := by
    intro i ps
    rw [List.filter_map, List.flatMap_map]
    rfl
  unfold weave
  refine List.flatMap_congr fun x _ => ?_
  dsimp only
  rw [hblocks, hblocks, h]

/-- The blocks that a pass weaves in are those of the annotations that it shows. -/
theorem anchored_blocks_annotatingPass (o : SegmentOptions) (lookback : Nat) (file : String)
    (l : Language) (f : CodeUnit → Annotation) (text : String) :
    (placeAll lookback l (strip l text)
        ((segment o text file l).map (·.annotatedBy fun u => some (f u)))).patches.map
        (fun p => (p.anchor, p.block))
      = (shownAnnotations o lookback file l f text).map
        fun x => (x.1, blockAbove l (strip l text).lines x.1 x.2) := by
  rw [(placeAll_own lookback (haveOwnLines_segment o text file l fun u => some (f u))).1,
    annotatedUnits_annotatedBy, shownAnnotations]
  simp only [List.filter_map, List.map_map]
  rfl

/-- Passes over texts of the same lines write the same exactly if they show the same. -/
theorem text_annotatingPass_eq_iff {text' : String}
    (hlines : (strip l text).lines = (strip l text').lines) :
    (annotatingPass o lookback file l f text).text = (annotatingPass o lookback file l f text').text
      ↔ shownAnnotations o lookback file l f text = shownAnnotations o lookback file l f text' := by
  constructor
  · intro htext
    have : Std.Antisymm fun x y : Nat × Annotation => x.1 < y.1 :=
      ⟨fun x y hxy hyx => absurd hxy (Nat.lt_asymm hyx)⟩
    have : Std.Irrefl fun x y : Nat × Annotation => x.1 < y.1 := ⟨fun x => Nat.lt_irrefl x.1⟩
    refine pairwise_shownAnnotations.eq_of_mem_iff pairwise_shownAnnotations fun ⟨i, a⟩ => ?_
    rw [← isAnnotatedIn_annotatingPass_iff, ← isAnnotatedIn_annotatingPass_iff, htext, hlines]
  · intro hshown
    have hblocks := anchored_blocks_annotatingPass o lookback file l f text
    rw [hshown, hlines, ← anchored_blocks_annotatingPass] at hblocks
    simp only [annotatingPass, synchronize]
    rw [hlines, weave_congr hblocks]

/-! ### A second pass -/

/-- A second pass changes nothing exactly if it finds what the first one has found. -/
theorem isIdempotentAt_iff : IsIdempotentAt o lookback file l f text
    ↔ shownAnnotations o lookback file l f text
      = shownAnnotations o lookback file l f (annotatingPass o lookback file l f text).text := by
  have hlines : (strip l text).lines
      = (strip l (annotatingPass o lookback file l f text).text).lines :=
    (lines_strip_synchronize lookback text l _).symm
  rw [← text_annotatingPass_eq_iff hlines]
  constructor
  · exact fun h => h.1.symm
  · intro htext
    refine ⟨htext.symm, ?_⟩
    simp only [annotatingPass, synchronize] at htext ⊢
    rw [← htext, bne_self_eq_false]

/-- The units of a synchronized text are those of the text without blocks, each at the place that it
has there. -/
theorem moved_units_synchronize (lookback : Nat) (annot : CodeUnit → Option Annotation)
    (h : StartsAgree o file l text) :
    let units := (segment o text file l).map (·.annotatedBy annot)
    ∃ k : CodeUnit → Nat, segment o (synchronize lookback text l units).text file l
        = (segment o (strip l text).text file l).map (fun u => u.movedDown (k u))
      ∧ ∀ u ∈ segment o (strip l text).text file l,
        (strip l (synchronize lookback text l units).text).shifted (u.range.start + k u)
          = u.range.start := by
  intro units
  refine ⟨_, h.units_synchronize lookback annot, fun u hu => ?_⟩
  rw [segment_strip] at hu
  exact shifted_weave (areLines_strip l text) isOpener_strip
    (isSound_placeAll lookback (areLines_strip l text).isLine _).blocks
    (start_lt_of_mem_unitsFrom hu)

theorem startsAgree_synchronize (lookback : Nat) (annot : CodeUnit → Option Annotation)
    (h : StartsAgree o file l text) :
    StartsAgree o file l (synchronize lookback text l
      ((segment o text file l).map (·.annotatedBy annot))).text := by
  obtain ⟨k, hunits, hplaces⟩ := moved_units_synchronize lookback annot h
  intro u hu
  rw [hunits] at hu
  obtain ⟨v, hv, rfl⟩ := List.mem_map.1 hu
  rw [text_strip_synchronize]
  exact ⟨v, hv, (hplaces v hv).symm⟩

/-- In a synchronized text a pass finds what it finds in the text without blocks, whatever the blocks
say. -/
theorem shownAnnotations_synchronize (hf : ReadsTextsAlone f) (lookback' : Nat)
    (annot : CodeUnit → Option Annotation) (h : StartsAgree o file l text) :
    shownAnnotations o lookback file l f (synchronize lookback' text l
        ((segment o text file l).map (·.annotatedBy annot))).text
      = shownAnnotations o lookback file l f (strip l text).text := by
  obtain ⟨k, hunits, hplaces⟩ := moved_units_synchronize lookback' annot h
  have hstrip : (strip l (strip l text).text).lines = (strip l text).lines := by
    rw [lines_of_removed_eq_nil (removed_strip_strip l text), splitLines_strip]
  have hmarked : ∀ u ∈ segment o (strip l text).text file l,
      isMarked lookback (strip l (synchronize lookback' text l
        ((segment o text file l).map (·.annotatedBy annot))).text) (u.movedDown (k u))
        = isMarked lookback (strip l (strip l text).text) u := by
    intro u hu
    have hplace := hplaces u hu
    rw [isMarked, isMarked, lines_strip_synchronize, hstrip,
      shifted_of_removed_eq_nil (removed_strip_strip l text)]
    exact congrArg _ hplace
  have hkept := List.filter_congr fun u hu => congrArg (!·) (hmarked u hu)
  rw [shownAnnotations, shownAnnotations, hunits, List.filter_map, List.map_map, ← hkept]
  refine List.map_congr_left fun u hu => ?_
  rw [shifted_of_removed_eq_nil (removed_strip_strip l text)]
  exact Prod.ext (hplaces u (List.mem_filter.1 hu).1) (hf.movedDown u (k u))

/-! ### Idempotence -/

/-- Passes are idempotent as far as old blocks have no part in what is annotated. The annotation may
be any function of a unit's name, scope, signature and body. A second pass changes nothing exactly
if it finds the annotations of the first one at their places again. Where no unit starts on account
of an old block, it finds what stands in the text without blocks; and over a text synchronized from
there, with whatever annotations, passes are idempotent. So they are over a text without blocks. -/
theorem annotatingPass_idempotent_iff (o : SegmentOptions) (lookback : Nat) (file : String)
    (l : Language) {f : CodeUnit → Annotation} (hf : ReadsTextsAlone f) (text : String) :
    (IsIdempotentAt o lookback file l f text ↔ shownAnnotations o lookback file l f text
        = shownAnnotations o lookback file l f (annotatingPass o lookback file l f text).text)
      ∧ (StartsAgree o file l text →
        (IsIdempotentAt o lookback file l f text ↔ shownAnnotations o lookback file l f text
          = shownAnnotations o lookback file l f (strip l text).text)
        ∧ ∀ (lookback' : Nat) (annot : CodeUnit → Option Annotation),
          IsIdempotentAt o lookback file l f (synchronize lookback' text l
            ((segment o text file l).map (·.annotatedBy annot))).text)
      ∧ ((strip l text).removed = [] → IsIdempotentAt o lookback file l f text) := by
  -- a pass is a synchronization with annotations of its own
  have hpass : ∀ t, StartsAgree o file l t →
      shownAnnotations o lookback file l f (annotatingPass o lookback file l f t).text
        = shownAnnotations o lookback file l f (strip l t).text := fun t h =>
    shownAnnotations_synchronize hf lookback _ h
  refine ⟨isIdempotentAt_iff, fun h => ⟨?_, fun lookback' annot => ?_⟩, fun hnone => ?_⟩
  · rw [isIdempotentAt_iff, hpass text h]
  · rw [isIdempotentAt_iff, hpass _ (startsAgree_synchronize lookback' annot h),
      text_strip_synchronize, shownAnnotations_synchronize hf lookback' annot h]
  · rw [isIdempotentAt_iff, hpass text (startsAgree_of_removed_eq_nil hnone),
      text_strip_of_removed_eq_nil hnone]

/-- A block in an old layout above a definition, which the definition does not see. -/
theorem annotatingPass_idempotent_openJson :
    let text := "# --- MADL ---\n# stale\ndef a(x):\n  return x\n"
    (strip .python text).removed.map (·.format) = [.openJson]
      ∧ IsIdempotentAt {} 10 "a.py" .python LocalRules.annotation text :=
  ⟨by decide +kernel, ((annotatingPass_idempotent_iff {} 10 "a.py" .python
    readsTextsAlone_annotation _).2.1 (by unfold StartsAgree; decide +kernel)).1.2
      (by decide +kernel)⟩

/-- An end sentinel in a body is seen: the first annotation quotes it and the second cannot. -/
theorem annotatingPass_not_idempotent :
    ¬ IsIdempotentAt {} 10 "a.py" .python LocalRules.annotation
      "def a(x):\n  # --- END MADL ---\n  return x\n" := by
  intro h
  have hstarts : StartsAgree {} "a.py" .python
      "def a(x):\n  # --- END MADL ---\n  return x\n" := by
    unfold StartsAgree
    decide +kernel
  have hshown := isIdempotentAt_iff.1 h
  rw [annotatingPass,
    shownAnnotations_synchronize readsTextsAlone_annotation 10 _ hstarts] at hshown
  have hquoted : (shownAnnotations {} 10 "a.py" .python LocalRules.annotation
      "def a(x):\n  # --- END MADL ---\n  return x\n").map (·.2.code)
        = ["def a(x):\n  # --- END MADL ---\n  return x"] := by
    decide +kernel
  rw [hshown] at hquoted
  exact absurd hquoted (by decide +kernel)

end Marginalia
