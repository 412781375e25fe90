import Marginalia.Proofs.Synchronize.Accounting

/-!
Names by themselves. Units claim lines of their own name only, so what the units of one name claim
depends on them and on the definitions of that name, whatever other units there are and wherever
these come in between. What becomes of a unit follows from what it claims.
-/

namespace Marginalia

open Text

variable {l : Language} {lookback : Nat} {s : Stripped}

/-! ### Claims of one name -/

/-- A claim looks at the anchors of the name alone. -/
theorem claim?_filter_name (name : String) (hint : Nat) (free : List Anchor) :
    claim? name hint (free.filter (·.name == name))
      = (claim? name hint free).map fun x => (x.1, x.2.filter (·.name == name)) := by
  have hnearest : nearest? name hint (free.filter (·.name == name)) = nearest? name hint free := by
    simp only [nearest?, List.filter_filter, Bool.and_self]
  rw [claim?, claim?, hnearest, Option.map_map]
  cases nearest? name hint free with
  | none => rfl
  | some a => simp only [Option.map_some, Function.comp_apply, List.filter_filter, Bool.and_comm]

/-- The claims of one name are those that its units make among themselves on its own lines. -/
theorem filter_claimsFrom (s : Stripped) (name : String) (free : List Anchor)
    (us : List (CodeUnit × Annotation)) :
    (claimsFrom s free us).filter (·.1.1.name == name)
      = claimsFrom s (free.filter (·.name == name)) (us.filter (·.1.name == name)) := by
  induction us generalizing free with
  | nil => rfl
  | cons x us ih =>
    by_cases hname : x.1.name = name
    · subst hname
      rw [List.filter_cons_of_pos (by simp), claimsFrom, claimsFrom, claim?_filter_name]
      cases claim? x.1.name (s.shifted x.1.range.start) free with
      | none => rw [List.filter_cons_of_pos (by simp), ih]; rfl
      | some claimed => rw [List.filter_cons_of_pos (by simp), ih]; rfl
    · have hne : (x.1.name == name) = false := by simpa using hname
      rw [List.filter_cons_of_neg (by simp [hne]), claimsFrom]
      split
      · rw [List.filter_cons_of_neg (by simp [hne]), ih]
      · next line rest hclaim =>
        obtain ⟨-, rfl⟩ := claim?_spec hclaim
        have hkept : (free.filter (· != ⟨x.1.name, line⟩)).filter (·.name == name)
            = free.filter (·.name == name) := by
          rw [List.filter_filter]
          refine List.filter_congr fun a _ => ?_
          by_cases ha : a.name = name
          · have hother : a ≠ ⟨x.1.name, line⟩ := by rintro rfl; exact hname ha
            simp [ha, hother]
          · simp [ha]
        rw [List.filter_cons_of_neg (by simp [hne]), ih, hkept]

theorem filter_annotatedUnits (name : String) (units : List CodeUnit) :
    (annotatedUnits units).filter (·.1.name == name)
      = annotatedUnits (units.filter fun u => u.annotation.isSome && u.name == name) := by
  have hkey := isKeyOrder_nat fun x : CodeUnit × Annotation => x.1.range.start
  rw [annotatedUnits, filter_sortBy hkey, annotatedUnits, List.filter_filterMap,
    List.filterMap_filter]
  congr 2
  funext u
  cases ha : u.annotation with
  | none => simp
  | some a => by_cases hname : u.name = name <;> simp [hname]

theorem filter_claimsOf (name : String) (units : List CodeUnit) :
    (claimsOf l s units).filter (·.1.1.name == name)
      = claimsFrom s ((anchorsFrom l 0 s.lines).filter (·.name == name))
        (annotatedUnits (units.filter fun u => u.annotation.isSome && u.name == name)) := by
  rw [claimsOf, filter_claimsFrom, filter_annotatedUnits]

theorem filter_placedUnits (name : String) (cs : List Claim) :
    (placedUnits lookback s cs).filter (·.1.1.name == name)
      = placedUnits lookback s (cs.filter (·.1.1.name == name)) := by
  rw [placedUnits, placedUnits, List.filter_filterMap, List.filterMap_filter]
  congr 1
  funext c
  cases c.place? lookback s <;> simp [Option.filter]

theorem filter_vainClaims (name : String) (cs : List Claim) :
    (vainClaims lookback s cs).filter (·.1.1.name == name)
      = vainClaims lookback s (cs.filter (·.1.1.name == name)) := by
  rw [vainClaims, vainClaims, List.filter_filter, List.filter_filter]
  simp only [Bool.and_comm]

/-! ### What becomes of the units of one name -/

/-- The outcome puts a block above a line for each of the placed units and leaves the others out,
each for a reason that its claim tells. -/
structure SyncOutcome.Treats (out : SyncOutcome) (l : Language) (s : Stripped)
    (units : List CodeUnit) (placed : List ((CodeUnit × Annotation) × Nat)) (left : List Claim) :
    Prop where
  all : (placed.map (·.1) ++ left.map (·.1)).Perm (units.filterMap fun u => u.annotation.map (u, ·))
  text : out.text = String.ofList (weave s.lines (placed.map (patchAt l s))).flatten
  inserted : out.inserted = (sortBy (fun x y => x.2 < y.2) placed).map (·.1.1.id)
  skipped : out.skipped = left.map Claim.skipped

theorem treats_synchronize (lookback : Nat) (text : String) (l : Language)
    (units : List CodeUnit) :
    (synchronize lookback text l units).Treats l (strip l text) units
      (placedUnits lookback (strip l text) (claimsOf l (strip l text) units))
      (vainClaims lookback (strip l text) (claimsOf l (strip l text) units)) := by
  obtain ⟨hpatches, hskipped⟩ := placeAll_claims lookback l (strip l text) units
  refine ⟨?_, ?_, ?_, hskipped⟩
  · have hperm := (placedUnits_append_vainClaims_perm lookback (strip l text)
      (claimsOf l (strip l text) units)).map (·.1)
    rw [List.map_append, List.map_map, claimsOf, map_fst_claimsFrom] at hperm
    exact hperm.trans (sortBy_perm _ _)
  · rw [← hpatches]
    rfl
  · show (sortBy _ (placeAll lookback l (strip l text) units).patches).map (·.id) = _
    rw [sortBy_patches, List.map_map]
    rfl

/-- Above the definitions of a name stand its placed units. -/
theorem isAnnotatedIn_iff_of_definedName {text : String} {units : List CodeUnit} {i : Nat}
    {line : Line} {name : String} (hline : (strip l text).lines[i]? = some line)
    (hname : definedName? l line = some name) (a : Annotation) :
    IsAnnotatedIn l (synchronize lookback text l units).text (strip l text).lines i a
      ↔ ∃ u, ((u, a), i) ∈ (placedUnits lookback (strip l text)
        (claimsOf l (strip l text) units)).filter (·.1.1.name == name) := by
  have hplaced : ∀ x, x ∈ placedIn lookback l (strip l text) units
      ↔ x ∈ placedUnits lookback (strip l text) (claimsOf l (strip l text) units) :=
    fun x => (sortBy_perm _ _).mem_iff
  rw [isAnnotatedIn_synchronize_iff_placed]
  refine exists_congr fun u => ?_
  rw [List.mem_filter, ← hplaced]
  refine ⟨fun hmem => ⟨hmem, ?_⟩, And.left⟩
  obtain ⟨line', hline', hname'⟩ := definedName?_of_mem_placedIn hmem
  obtain rfl := Option.some.inj (hline.symm.trans hline')
  exact beq_iff_eq.2 (Option.some.inj (hname'.symm.trans hname))

/-- Synchronizing treats the units of each name by themselves. Two lists that have the same
annotated units of a name, in the same order, may differ in everything else: the same units of the
name are placed above the same lines with the same blocks, the same ones are left out for the same
reasons, and the same annotations stand above the definitions of the name. -/
theorem synchronize_isolates_names (lookback : Nat) (text : String) (l : Language)
    {units units' : List CodeUnit} {name : String}
    (h : units.filter (fun u => u.annotation.isSome && u.name == name)
      = units'.filter fun u => u.annotation.isSome && u.name == name) :
    let s := strip l text
    let out := synchronize lookback text l units
    let out' := synchronize lookback text l units'
    (∃ placed left placed' left', out.Treats l s units placed left
        ∧ out'.Treats l s units' placed' left'
        ∧ placed.filter (·.1.1.name == name) = placed'.filter (·.1.1.name == name)
        ∧ left.filter (·.1.1.name == name) = left'.filter (·.1.1.name == name))
      ∧ out.skipped.filter (·.name == name) = out'.skipped.filter (·.name == name)
      ∧ ∀ i line, s.lines[i]? = some line → definedName? l line = some name →
        ∀ a, IsAnnotatedIn l out.text s.lines i a ↔ IsAnnotatedIn l out'.text s.lines i a := by
  intro s out out'
  have hclaims : (claimsOf l s units).filter (·.1.1.name == name)
      = (claimsOf l s units').filter (·.1.1.name == name) := by
    rw [filter_claimsOf, filter_claimsOf, h]
  have hplaced : (placedUnits lookback s (claimsOf l s units)).filter (·.1.1.name == name)
      = (placedUnits lookback s (claimsOf l s units')).filter (·.1.1.name == name) := by
    rw [filter_placedUnits, filter_placedUnits, hclaims]
  have hleft : (vainClaims lookback s (claimsOf l s units)).filter (·.1.1.name == name)
      = (vainClaims lookback s (claimsOf l s units')).filter (·.1.1.name == name) := by
    rw [filter_vainClaims, filter_vainClaims, hclaims]
  have htreats : out.Treats l s units _ _ := treats_synchronize lookback text l units
  have htreats' : out'.Treats l s units' _ _ := treats_synchronize lookback text l units'
  refine ⟨⟨_, _, _, _, htreats, htreats', hplaced, hleft⟩, ?_, fun i line hline hname a => ?_⟩
  · have hnames : ((fun x : SkippedUnit => x.name == name) ∘ Claim.skipped)
        = fun c => c.1.1.name == name := rfl
    rw [htreats.skipped, htreats'.skipped, List.filter_map, List.filter_map, hnames, hleft]
  · rw [isAnnotatedIn_iff_of_definedName hline hname, isAnnotatedIn_iff_of_definedName hline hname]
    exact exists_congr fun u => by rw [hplaced]

/-- Renaming the one unit and dropping the annotation of the other leaves a third alone. -/
theorem synchronize_isolates_names_renamed :
    let text := "def f(x):\n  return x\ndef g(y):\n  return y\ndef h(z):\n  return z\n"
    let units := (segment {} text "a.py" .python).map
      (·.annotatedBy fun u => some ⟨u.name, "", "", "", [], "", u.body⟩)
    let units' := units.map fun u => if u.name == "f" then { u with name := "g'" }
      else if u.name == "h" then { u with annotation := none } else u
    let lines := (strip .python text).lines
    units.filter (fun u => u.annotation.isSome && u.name == "g")
        = units'.filter (fun u => u.annotation.isSome && u.name == "g")
      ∧ ∀ a, IsAnnotatedIn .python (synchronize 10 text .python units).text lines 2 a
        ↔ IsAnnotatedIn .python (synchronize 10 text .python units').text lines 2 a := by
  intro text units units' lines
  have hsame : units.filter (fun u => u.annotation.isSome && u.name == "g")
      = units'.filter (fun u => u.annotation.isSome && u.name == "g") := by decide +kernel
  exact ⟨hsame, (synchronize_isolates_names 10 text .python hsame).2.2 2 "def g(y):\n".toList
    (by decide +kernel) (by decide +kernel)⟩

end Marginalia
