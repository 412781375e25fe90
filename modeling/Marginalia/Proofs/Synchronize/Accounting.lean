import Mathlib.Data.List.Basic
import Marginalia.Proofs.Synchronize.Anchoring

/-!
What becomes of every unit. The annotated units claim definition lines one after the other, and what
a unit claims decides what becomes of it: a block above its line, or a reason why there is none. No
line is claimed twice and a name runs out of lines only when all of them are claimed, whatever units
there are and wherever they say that they stand.
-/

namespace Marginalia

open Text

variable {l : Language} {lookback : Nat} {s : Stripped}

/-! ### Claims -/

/-- An annotated unit and the definition line that it has claimed, if there was one for it. -/
abbrev Claim := (CodeUnit × Annotation) × Option Nat

/-- What annotated units claim of the free anchors, one after the other. -/
def claimsFrom (s : Stripped) (free : List Anchor) : List (CodeUnit × Annotation) → List Claim
  | [] => []
  | x :: rest =>
    match claim? x.1.name (s.shifted x.1.range.start) free with
    | none => (x, none) :: claimsFrom s free rest
    | some (line, free) => (x, some line) :: claimsFrom s free rest

/-- The line that is claimed, if no mark stands above it. -/
def Claim.place? (lookback : Nat) (s : Stripped) (c : Claim) : Option Nat :=
  c.2.filter (!hasSurvivingMark lookback s.lines ·)

/-- The units that get a block, with their lines. -/
def placedUnits (lookback : Nat) (s : Stripped) (cs : List Claim) :
    List ((CodeUnit × Annotation) × Nat) :=
  cs.filterMap fun c => (c.place? lookback s).map (c.1, ·)

/-- The claims of the units that get no block. -/
def vainClaims (lookback : Nat) (s : Stripped) (cs : List Claim) : List Claim :=
  cs.filter fun c => (c.place? lookback s).isNone

/-- The block of an annotated unit above a line. -/
def patchAt (l : Language) (s : Stripped) (x : (CodeUnit × Annotation) × Nat) : Patch :=
  ⟨x.2, blockAbove l s.lines x.2 x.1.2, x.1.1.id⟩

theorem readBlock_patchAt (x : (CodeUnit × Annotation) × Nat) :
    readBlock l (patchAt l s x).block = .ok (.delimited, x.1.2) :=
  readBlock_blockAbove s.lines x.2 x.1.2

/-- The reason why a unit gets no block: it has claimed no line, or one below a mark. -/
def Claim.skipped (c : Claim) : SkippedUnit :=
  ⟨c.1.1.id, c.1.1.name, if c.2.isSome then .alreadyAnnotated else .notFound⟩

theorem map_fst_claimsFrom (s : Stripped) (free : List Anchor)
    (us : List (CodeUnit × Annotation)) : (claimsFrom s free us).map (·.1) = us := by
  induction us generalizing free with
  | nil => rfl
  | cons x us ih =>
    rw [claimsFrom]
    split <;> rw [List.map_cons, ih]

theorem mem_of_mem_claimsFrom {free : List Anchor} {us : List (CodeUnit × Annotation)} {c : Claim}
    (h : c ∈ claimsFrom s free us) : c.1 ∈ us := by
  rw [← map_fst_claimsFrom s free us]
  exact List.mem_map_of_mem h

/-- A claim is placed or left out, and none is both. -/
theorem placedUnits_append_vainClaims_perm (lookback : Nat) (s : Stripped) (cs : List Claim) :
    ((placedUnits lookback s cs).map (fun x => (x.1, some x.2)) ++ vainClaims lookback s cs).Perm
      cs := by
  induction cs with
  | nil => exact .nil
  | cons c cs ih =>
    cases hplace : c.place? lookback s with
    | none =>
      have hvain : vainClaims lookback s (c :: cs) = c :: vainClaims lookback s cs := by
        simp [vainClaims, hplace]
      have hplaced : placedUnits lookback s (c :: cs) = placedUnits lookback s cs := by
        simp [placedUnits, hplace]
      rw [hvain, hplaced]
      exact List.perm_middle.trans (ih.cons c)
    | some line =>
      have hvain : vainClaims lookback s (c :: cs) = vainClaims lookback s cs := by
        simp [vainClaims, hplace]
      have hplaced : placedUnits lookback s (c :: cs)
          = (c.1, line) :: placedUnits lookback s cs := by
        simp [placedUnits, hplace]
      have hclaim : (c.1, some line) = c :=
        Prod.ext rfl (Option.filter_eq_some_iff.1 hplace).1.symm
      rw [hvain, hplaced, List.map_cons, hclaim]
      exact ih.cons c

/-- What units claim decides what is placed and what is left out. -/
theorem foldl_place_claimsFrom (lookback : Nat) (s : Stripped) (us : List (CodeUnit × Annotation))
    (p : Placement) :
    (us.foldl (fun p (u, a) => p.place lookback l s u a) p).patches
        = p.patches ++ (placedUnits lookback s (claimsFrom s p.free us)).map (patchAt l s)
      ∧ (us.foldl (fun p (u, a) => p.place lookback l s u a) p).skipped
        = p.skipped ++ (vainClaims lookback s (claimsFrom s p.free us)).map Claim.skipped := by
  induction us generalizing p with
  | nil => simp [claimsFrom, placedUnits, vainClaims]
  | cons x us ih =>
    obtain ⟨u, a⟩ := x
    obtain ⟨hpatches, hskipped⟩ := ih (p.place lookback l s u a)
    rw [List.foldl_cons, hpatches, hskipped, claimsFrom]
    rcases place_cases (l := l) lookback s p u a with
      ⟨hclaim, hplace⟩ | ⟨line, free, hclaim, hplace⟩
    · rw [hplace, hclaim]
      simp [placedUnits, vainClaims, Claim.place?, Claim.skipped]
    · rcases hplace with ⟨hmark, hplace⟩ | ⟨hmark, hplace⟩
      · rw [hplace, hclaim]
        simp [placedUnits, vainClaims, Claim.place?, Claim.skipped, hmark]
      · rw [hplace, hclaim]
        simp [placedUnits, vainClaims, Claim.place?, patchAt, hmark]

/-! ### Claimed lines -/

theorem mem_free_of_mem_claimsFrom {free : List Anchor} {us : List (CodeUnit × Annotation)}
    {x : CodeUnit × Annotation} {line : Nat} (h : (x, some line) ∈ claimsFrom s free us) :
    ⟨x.1.name, line⟩ ∈ free := by
  induction us generalizing free with
  | nil => exact absurd h List.not_mem_nil
  | cons y us ih =>
    rw [claimsFrom] at h
    split at h
    · rcases List.mem_cons.1 h with h | h
      · cases h
      · exact ih h
    · next line' free' hclaim =>
      obtain ⟨hmem, rfl⟩ := claim?_spec hclaim
      rcases List.mem_cons.1 h with h | h
      · obtain ⟨rfl, hline⟩ := Prod.mk.inj h
        exact Option.some.inj hline ▸ hmem
      · exact (List.mem_filter.1 (ih h)).1

/-- No line is claimed twice. -/
theorem nodup_claimsFrom {free : List Anchor} (hfree : (free.map (·.line)).Nodup)
    (us : List (CodeUnit × Annotation)) : ((claimsFrom s free us).filterMap (·.2)).Nodup := by
  induction us generalizing free with
  | nil => exact .nil
  | cons x us ih =>
    rw [claimsFrom]
    split
    · exact ih hfree
    · next line free' hclaim =>
      obtain ⟨hmem, rfl⟩ := claim?_spec hclaim
      have hsub : (free.filter (· != ⟨x.1.name, line⟩)).Sublist free := List.filter_sublist
      refine List.nodup_cons.2 ⟨fun hagain => ?_, ih (hfree.sublist (hsub.map _))⟩
      obtain ⟨⟨y, _⟩, hy, rfl⟩ := List.mem_filterMap.1 hagain
      obtain ⟨hyfree, hne⟩ := List.mem_filter.1 (mem_free_of_mem_claimsFrom hy)
      have hsame := List.inj_on_of_nodup_map hfree hyfree hmem rfl
      simp [hsame] at hne

theorem claim?_eq_none_iff {name : String} {hint : Nat} {free : List Anchor} :
    claim? name hint free = none ↔ ∀ a ∈ free, a.name ≠ name := by
  rw [claim?, Option.map_eq_none_iff]
  constructor
  · exact fun h a ha hname => nearest?_ne_none ha hname h
  · intro h
    cases hbest : nearest? name hint free with
    | none => rfl
    | some best => exact absurd (nearest?_spec hbest).2.1 (h best (nearest?_spec hbest).1)

theorem countP_claimed {free : List Anchor} (hfree : free.Nodup) {a : Anchor} (ha : a ∈ free)
    (p : Anchor → Bool) :
    free.countP p = (free.filter (· != a)).countP p + (if p a then 1 else 0) := by
  rw [← hfree.erase_eq_filter, ← List.countP_cons]
  exact (List.perm_cons_erase ha).countP_eq p

/-- A unit is left without a line only when all lines of its name are claimed. -/
theorem countP_claimsFrom {free : List Anchor} (hfree : free.Nodup)
    (us : List (CodeUnit × Annotation)) (name : String) :
    (claimsFrom s free us).countP (fun c => c.1.1.name == name && c.2.isNone)
      = us.countP (·.1.name == name) - free.countP (·.name == name) := by
  induction us generalizing free with
  | nil => simp [claimsFrom]
  | cons x us ih =>
    rw [claimsFrom, List.countP_cons]
    split
    · next hclaim =>
      rw [List.countP_cons, ih hfree]
      by_cases hname : x.1.name = name
      · have hnone : free.countP (·.name == name) = 0 :=
          List.countP_eq_zero.2 fun a ha => by
            simpa using hname ▸ claim?_eq_none_iff.1 hclaim a ha
        simp [hname, hnone]
      · simp [hname]
    · next line free' hclaim =>
      obtain ⟨hmem, rfl⟩ := claim?_spec hclaim
      rw [List.countP_cons, ih (hfree.filter _), countP_claimed hfree hmem]
      by_cases hname : x.1.name = name
      · simp [hname]
      · simp [hname]

/-! ### The anchors of a text -/

/-- The name that a line of a text defines. -/
def definedName? (l : Language) (line : Line) : Option String :=
  (Header.ofLine? l (withoutTerminator line)).map (·.name)

theorem anchorsFrom_cons (l : Language) (index : Nat) (line : Line) (rest : List Line) :
    anchorsFrom l index (line :: rest)
      = ((definedName? l line).map fun name => ⟨name, index⟩).toList
        ++ anchorsFrom l (index + 1) rest := by
  rw [anchorsFrom, List.zipIdx_cons, List.filterMap_cons, definedName?, ← anchorsFrom]
  dsimp only
  cases Header.ofLine? l (withoutTerminator line) <;> rfl

theorem le_line_of_mem_anchorsFrom {index : Nat} {lines : List Line} {a : Anchor}
    (h : a ∈ anchorsFrom l index lines) : index ≤ a.line := by
  obtain ⟨⟨line, i⟩, hmem, ha⟩ := List.mem_filterMap.1 h
  obtain ⟨h, -, rfl⟩ := Option.map_eq_some_iff.1 ha
  exact List.le_snd_of_mem_zipIdx hmem

theorem nodup_line_anchorsFrom (l : Language) (index : Nat) (lines : List Line) :
    ((anchorsFrom l index lines).map (·.line)).Nodup := by
  induction lines generalizing index with
  | nil => exact .nil
  | cons line rest ih =>
    rw [anchorsFrom_cons]
    cases definedName? l line with
    | none => exact ih (index + 1)
    | some name =>
      refine List.nodup_cons.2 ⟨fun hagain => ?_, ih (index + 1)⟩
      obtain ⟨a, ha, hline⟩ := List.mem_map.1 hagain
      have := le_line_of_mem_anchorsFrom ha
      rw [hline] at this
      exact absurd this (Nat.not_succ_le_self index)

theorem countP_anchorsFrom (l : Language) (index : Nat) (lines : List Line) (name : String) :
    (anchorsFrom l index lines).countP (·.name == name)
      = lines.countP fun line => definedName? l line == some name := by
  induction lines generalizing index with
  | nil => rfl
  | cons line rest ih =>
    rw [anchorsFrom_cons, List.countP_append, List.countP_cons, ih (index + 1), Nat.add_comm]
    cases definedName? l line <;> simp

theorem mem_anchorsFrom_iff {lines : List Line} {name : String} {i : Nat} :
    ⟨name, i⟩ ∈ anchorsFrom l 0 lines
      ↔ ∃ line, lines[i]? = some line ∧ definedName? l line = some name := by
  rw [mem_anchorsFrom]
  simp only [definedName?, Option.map_eq_some_iff]
  exact ⟨fun ⟨line, h, hline, hh⟩ => ⟨line, hline, h, hh⟩,
    fun ⟨line, hline, h, hh⟩ => ⟨line, h, hline, hh⟩⟩

/-! ### The blocks of a text -/

/-- The lines of a piece that is a block. -/
def Piece.block? : Piece → Option (List Line)
  | line _ => none
  | block _ lines => some lines

/-- The blocks of a text, in their order. -/
def blocksOf (l : Language) (text : String) : List (List Line) :=
  (pieces l (splitLines text.toList)).filterMap Piece.block?

theorem blocks_wovenPieces (i : Nat) (lines : List Line) (patches : List Patch) :
    (wovenPieces i lines patches).filterMap Piece.block?
      = (patchesFrom i lines patches).map (·.block) := by
  induction lines generalizing i with
  | nil => rfl
  | cons line rest ih =>
    rw [wovenPieces_cons, patchesFrom_cons, List.filterMap_append, List.map_append, ← ih,
      blockPieces, List.filterMap_map]
    simp [List.filterMap_cons, Piece.block?, Function.comp_def]

/-- Patches with different anchors are woven in from top to bottom. -/
theorem pairwise_patchesFrom {patches : List Patch}
    (hd : patches.Pairwise fun p q => p.anchor ≠ q.anchor) (i : Nat) (lines : List Line) :
    (patchesFrom i lines patches).Pairwise fun p q => p.anchor < q.anchor := by
  induction lines generalizing i with
  | nil => exact .nil
  | cons line rest ih =>
    rw [patchesFrom_cons]
    refine List.pairwise_append.2 ⟨?_, ih (i + 1), fun p hp q hq => ?_⟩
    · refine (hd.filter _).imp_of_mem fun {p q} hp hq hne => absurd ?_ hne
      rw [beq_iff_eq.1 (List.mem_filter.1 hp).2, beq_iff_eq.1 (List.mem_filter.1 hq).2]
    · rw [beq_iff_eq.1 (List.mem_filter.1 hp).2]
      have hbelow := (List.mem_filter.1 ((patchesFrom_perm_filter _ _ _).mem_iff.1 hq)).2
      simp only [Bool.and_eq_true, decide_eq_true_eq] at hbelow
      omega

theorem patchesFrom_eq_sortBy {lines : List Line} {patches : List Patch}
    (hd : patches.Pairwise fun p q => p.anchor ≠ q.anchor)
    (hanchors : ∀ p ∈ patches, p.anchor < lines.length) :
    patchesFrom 0 lines patches = sortBy (fun p q => p.anchor < q.anchor) patches := by
  have hperm := patchesFrom_perm_filter 0 lines patches
  rw [List.filter_eq_self.2 fun p hp => by simpa using hanchors p hp] at hperm
  exact (sortBy_eq_of_perm (isKeyOrder_nat Patch.anchor) hperm.symm
    ((pairwise_patchesFrom hd 0 lines).imp decide_eq_true)).symm

/-! ### Every unit accounted for -/

/-- The claims of the annotated units of a text. -/
def claimsOf (l : Language) (s : Stripped) (units : List CodeUnit) : List Claim :=
  claimsFrom s (anchorsFrom l 0 s.lines) (annotatedUnits units)

/-- The units that get a block, from top to bottom. -/
def placedIn (lookback : Nat) (l : Language) (s : Stripped) (units : List CodeUnit) :
    List ((CodeUnit × Annotation) × Nat) :=
  sortBy (fun x y => x.2 < y.2) (placedUnits lookback s (claimsOf l s units))

theorem placeAll_claims (lookback : Nat) (l : Language) (s : Stripped) (units : List CodeUnit) :
    (placeAll lookback l s units).patches
        = (placedUnits lookback s (claimsOf l s units)).map (patchAt l s)
      ∧ (placeAll lookback l s units).skipped
        = (vainClaims lookback s (claimsOf l s units)).map Claim.skipped := by
  obtain ⟨hpatches, hskipped⟩ := foldl_place_claimsFrom (l := l) lookback s (annotatedUnits units)
    ⟨anchorsFrom l 0 s.lines, [], []⟩
  rw [List.nil_append] at hpatches hskipped
  exact ⟨hpatches, hskipped⟩

theorem sortBy_patches (lookback : Nat) (l : Language) (s : Stripped) (units : List CodeUnit) :
    sortBy (fun p q => p.anchor < q.anchor) (placeAll lookback l s units).patches
      = (placedIn lookback l s units).map (patchAt l s) := by
  rw [(placeAll_claims lookback l s units).1, placedIn]
  let less (p q : Patch) : Bool := p.anchor < q.anchor
  have hmap : (sortBy (fun x y => less (patchAt l s x) (patchAt l s y))
      (placedUnits lookback s (claimsOf l s units))).map (patchAt l s)
        = sortBy less ((placedUnits lookback s (claimsOf l s units)).map (patchAt l s)) :=
    map_sortBy _ _
  exact hmap.symm

theorem placedIn_append_vainClaims_perm (lookback : Nat) (l : Language) (s : Stripped)
    (units : List CodeUnit) :
    ((placedIn lookback l s units).map (fun x => (x.1, some x.2))
      ++ vainClaims lookback s (claimsOf l s units)).Perm (claimsOf l s units) :=
  (((sortBy_perm _ _).map _).append_right _).trans
    (placedUnits_append_vainClaims_perm lookback s (claimsOf l s units))

/-- All lines that are claimed differ, those claimed in vain included. -/
theorem nodup_claimed (lookback : Nat) (l : Language) (s : Stripped) (units : List CodeUnit) :
    ((placedIn lookback l s units).map (·.2)
      ++ (vainClaims lookback s (claimsOf l s units)).filterMap (·.2)).Nodup := by
  have hclaims : ((claimsOf l s units).filterMap (·.2)).Nodup :=
    nodup_claimsFrom (nodup_line_anchorsFrom l 0 s.lines) _
  have hperm := (placedIn_append_vainClaims_perm lookback l s units).filterMap (·.2)
  rw [List.filterMap_append, List.filterMap_map] at hperm
  refine List.Perm.nodup ?_ hclaims
  simpa [Function.comp_def] using hperm.symm

theorem pairwise_placedIn (lookback : Nat) (l : Language) (s : Stripped) (units : List CodeUnit) :
    (placedIn lookback l s units).Pairwise fun x y => x.2 < y.2 := by
  have hne := List.pairwise_map.1 (List.nodup_append.1 (nodup_claimed lookback l s units)).1
  have hle := pairwise_sortBy (isKeyOrder_nat Prod.snd)
    (placedUnits lookback s (claimsOf l s units))
  exact (hle.and hne).imp fun h => Nat.lt_of_le_of_ne (by simpa using h.1) h.2

/-- A unit stands above a line that defines its name. -/
theorem definedName?_of_mem_placedIn {units : List CodeUnit}
    {x : (CodeUnit × Annotation) × Nat} (hx : x ∈ placedIn lookback l s units) :
    ∃ line, s.lines[x.2]? = some line ∧ definedName? l line = some x.1.1.name := by
  have hclaim : (x.1, some x.2) ∈ claimsOf l s units :=
    (placedIn_append_vainClaims_perm lookback l s units).mem_iff.1
      (List.mem_append_left _ (List.mem_map.2 ⟨x, hx, rfl⟩))
  exact mem_anchorsFrom_iff.1 (mem_free_of_mem_claimsFrom hclaim)

/-- The units of a name that are left without a line are those that are too many. -/
theorem countP_notFound (lookback : Nat) (l : Language) (s : Stripped) (units : List CodeUnit)
    (name : String) :
    (placeAll lookback l s units).skipped.countP (fun x => x.name == name && x.reason == .notFound)
      = (annotatedUnits units).countP (·.1.name == name)
        - s.lines.countP fun line => definedName? l line == some name := by
  have hperm := (placedIn_append_vainClaims_perm lookback l s units).countP_eq
    fun c => c.1.1.name == name && c.2.isNone
  rw [List.countP_append, List.countP_map] at hperm
  rw [← countP_anchorsFrom l 0, ← countP_claimsFrom (nodup_line_anchorsFrom l 0 s.lines).of_map,
    ← claimsOf, ← hperm, (placeAll_claims lookback l s units).2, List.countP_map]
  have hplaced : (placedIn lookback l s units).countP
      ((fun c : Claim => c.1.1.name == name && c.2.isNone) ∘ fun x => (x.1, some x.2)) = 0 :=
    List.countP_eq_zero.2 fun x _ => by simp
  rw [hplaced, Nat.zero_add]
  refine List.countP_congr fun c _ => ?_
  cases hline : c.2 <;> simp [Claim.skipped, hline]

theorem pairwise_patches (lookback : Nat) (l : Language) (s : Stripped) (units : List CodeUnit) :
    (placeAll lookback l s units).patches.Pairwise fun p q => p.anchor ≠ q.anchor := by
  refine ((sortBy_perm (fun p q : Patch => p.anchor < q.anchor) _).pairwise_iff Ne.symm).1 ?_
  rw [sortBy_patches]
  exact List.pairwise_map.2 ((pairwise_placedIn lookback l s units).imp Nat.ne_of_lt)

/-- The blocks of a synchronized text are those of the placed units, in their order. -/
theorem readBlock_blocksOf_synchronize (lookback : Nat) (text : String) (l : Language)
    (units : List CodeUnit) :
    (blocksOf l (synchronize lookback text l units).text).map (readBlock l)
      = (placedIn lookback l (strip l text) units).map fun x => .ok (.delimited, x.1.2) := by
  have hlines := areLines_strip l text
  have hsound := isSound_placeAll (l := l) lookback hlines.isLine units
  have hblocks : blocksOf l (synchronize lookback text l units).text
      = ((placedIn lookback l (strip l text) units).map (patchAt l (strip l text))).map
        (·.block) := by
    simp only [blocksOf, synchronize, String.toList_ofList]
    rw [splitLines_weave hlines hsound.blocks, pieces_weave isOpener_strip hsound.blocks,
      blocks_wovenPieces, patchesFrom_eq_sortBy (pairwise_patches lookback l _ units)
        hsound.anchors, sortBy_patches]
  rw [hblocks, List.map_map, List.map_map]
  refine List.map_congr_left fun x _ => ?_
  rw [Function.comp_apply, Function.comp_apply, readBlock_patchAt]

/-- What stands above a line is the annotation of the unit that is placed there. -/
theorem isAnnotatedIn_synchronize_iff_placed {text : String} {units : List CodeUnit} (i : Nat)
    (a : Annotation) :
    IsAnnotatedIn l (synchronize lookback text l units).text (strip l text).lines i a
      ↔ ∃ u, ((u, a), i) ∈ placedIn lookback l (strip l text) units := by
  have hsound := isSound_placeAll (l := l) lookback (areLines_strip l text).isLine units
  have hmem : ∀ p, p ∈ (placeAll lookback l (strip l text) units).patches
      ↔ ∃ x ∈ placedIn lookback l (strip l text) units, patchAt l (strip l text) x = p := by
    intro p
    rw [← List.mem_map, ← sortBy_patches, (sortBy_perm _ _).mem_iff]
  refine (isAnnotatedIn_weave_iff (areLines_strip l text) isOpener_strip hsound.blocks
    hsound.anchors (pairwise_patches lookback l _ units)).trans ⟨?_, ?_⟩
  · rintro ⟨p, hp, rfl, hread⟩
    obtain ⟨⟨⟨u, b⟩, line⟩, hx, rfl⟩ := (hmem p).1 hp
    rw [readBlock_patchAt] at hread
    obtain rfl := (Prod.mk.inj (Except.ok.inj hread)).2
    exact ⟨u, hx⟩
  · rintro ⟨u, hx⟩
    exact ⟨patchAt l (strip l text) ((u, a), i), (hmem _).2 ⟨_, hx, rfl⟩, rfl,
      readBlock_patchAt ((u, a), i)⟩

/-- Synchronizing accounts for every annotated unit, whatever units there are. Each is placed on a
line of its own that defines its name, or left out with a reason, and no two have claimed one line.
The blocks of the new text are those of the placed units, one directly above each line, in the order
in which the units are listed. Of the units of a name as many find no line as there are too few
lines that define it. -/
theorem synchronize_accounts_for_units (lookback : Nat) (text : String) (l : Language)
    (units : List CodeUnit) :
    let s := strip l text
    let out := synchronize lookback text l units
    let annotated := units.filterMap fun u => u.annotation.map (u, ·)
    ∃ (placed : List ((CodeUnit × Annotation) × Nat)) (left : List Claim),
      (placed.map (·.1) ++ left.map (·.1)).Perm annotated
        ∧ out.inserted = placed.map (·.1.1.id)
        ∧ out.skipped = left.map Claim.skipped
        ∧ (placed.map (·.2) ++ left.filterMap (·.2)).Nodup
        ∧ (∀ x ∈ placed, ∃ line, s.lines[x.2]? = some line
          ∧ definedName? l line = some x.1.1.name)
        ∧ (∀ i a, IsAnnotatedIn l out.text s.lines i a ↔ ∃ u, ((u, a), i) ∈ placed)
        ∧ placed.Pairwise (fun x y => x.2 < y.2)
        ∧ (blocksOf l out.text).map (readBlock l) = placed.map (fun x => .ok (.delimited, x.1.2))
        ∧ ∀ name, out.skipped.countP (fun x => x.name == name && x.reason == .notFound)
          = annotated.countP (·.1.name == name)
            - s.lines.countP fun line => definedName? l line == some name := by
  intro s out annotated
  have hannotated : (annotatedUnits units).Perm annotated := sortBy_perm _ _
  refine ⟨placedIn lookback l s units, vainClaims lookback s (claimsOf l s units), ?_, ?_,
    (placeAll_claims lookback l s units).2, nodup_claimed lookback l s units,
    fun x hx => definedName?_of_mem_placedIn hx, isAnnotatedIn_synchronize_iff_placed,
    pairwise_placedIn lookback l s units, readBlock_blocksOf_synchronize lookback text l units,
    fun name => ?_⟩
  · have hperm := (placedIn_append_vainClaims_perm lookback l s units).map (·.1)
    rw [List.map_append, List.map_map, claimsOf, map_fst_claimsFrom] at hperm
    exact hperm.trans hannotated
  · show (sortBy _ (placeAll lookback l s units).patches).map (·.id) = _
    rw [sortBy_patches, List.map_map]
    rfl
  · rw [← hannotated.countP_eq]
    exact countP_notFound lookback l s units name

end Marginalia
