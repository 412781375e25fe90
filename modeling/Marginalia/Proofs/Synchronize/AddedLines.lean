import Marginalia.Proofs.Synchronize.Isolation

/-!
Lines put in front of a text after its units have been found. Every definition has moved down, but
the units still say where it was, so each of them looks too far up. It claims its own definition
unless another one of its name, which no unit before it has claimed, stands above and is at least as
near to the old place.
-/

namespace Marginalia

open Text

variable {l : Language} {lookback k : Nat} {s : Stripped}

/-! ### Claiming from above -/

/-- The anchor stands above the line `k` lines below `hint` and is as near to `hint`, or nearer. -/
def Anchor.Intercepts (hint k : Nat) (a : Anchor) : Prop :=
  a.line < hint + k ∧ hint + k ≤ a.line + 2 * k

/-- A free line of the name that lies below is the one that is claimed if no other intercepts. -/
theorem claim?_below_iff {name : String} {hint : Nat} {free : List Anchor}
    (hown : ⟨name, hint + k⟩ ∈ free) :
    claim? name hint free = some (hint + k, free.filter (· != ⟨name, hint + k⟩))
      ↔ ∀ a ∈ free, a.name = name → ¬ a.Intercepts hint k := by
  cases hbest : nearest? name hint free with
  | none => exact absurd hbest (nearest?_ne_none hown rfl)
  | some best =>
    obtain ⟨hmem, rfl, hnear⟩ := nearest?_spec hbest
    rw [claim?, hbest, Option.map_some]
    constructor
    · rintro hclaim a ha hname ⟨habove, hreach⟩
      have hline : best.line = hint + k := congrArg Prod.fst (Option.some.inj hclaim)
      have hnear := hnear a ha hname
      simp only [Anchor.IsNearer, distance] at hnear
      omega
    · intro hclear
      have hnear := hnear _ hown rfl
      have hclear := hclear best hmem rfl
      simp only [Anchor.IsNearer, Anchor.Intercepts, distance] at hnear hclear
      have hline : hint + k = best.line := by omega
      rw [hline]

/-- The anchor `k` lines below the place that a unit gives. -/
def anchorBelow (s : Stripped) (k : Nat) (x : CodeUnit × Annotation) : Anchor :=
  ⟨x.1.name, s.shifted x.1.range.start + k⟩

/-- The claim is the line `k` lines below the place that its unit gives. -/
def Claim.IsBelow (s : Stripped) (k : Nat) (c : Claim) : Prop :=
  c.2 = some (anchorBelow s k c.1).line

/-- One unit takes its line if no other intercepts, and leaves all others free. -/
theorem isBelow_claimsFrom_cons_iff {free : List Anchor} {x : CodeUnit × Annotation}
    {us : List (CodeUnit × Annotation)} (hown : anchorBelow s k x ∈ free) :
    (∀ c ∈ claimsFrom s free (x :: us), c.IsBelow s k)
      ↔ (∀ a ∈ free, a.name = x.1.name → ¬ a.Intercepts (s.shifted x.1.range.start) k)
        ∧ ∀ c ∈ claimsFrom s (free.filter (· != anchorBelow s k x)) us, c.IsBelow s k := by
  rw [← claim?_below_iff hown, claimsFrom]
  cases hclaim : claim? x.1.name (s.shifted x.1.range.start) free with
  | none => exact absurd rfl (claim?_eq_none_iff.1 hclaim _ hown)
  | some claimed =>
    obtain ⟨line, rest⟩ := claimed
    obtain ⟨-, rfl⟩ := claim?_spec hclaim
    simp only [List.forall_mem_cons, Claim.IsBelow, anchorBelow, Option.some.injEq, Prod.mk.injEq]
    constructor
    · rintro ⟨rfl, hus⟩
      exact ⟨⟨rfl, rfl⟩, hus⟩
    · rintro ⟨⟨rfl, -⟩, hus⟩
      exact ⟨rfl, hus⟩

/-- Units all claim the lines `k` lines below their places exactly if the only lines of their names
that intercept are such lines of units themselves. -/
theorem isBelow_claimsFrom_iff {free : List Anchor} {us : List (CodeUnit × Annotation)}
    (hown : ∀ x ∈ us, anchorBelow s k x ∈ free)
    (hbelow : us.Pairwise fun x y => s.shifted x.1.range.start < s.shifted y.1.range.start) :
    (∀ c ∈ claimsFrom s free us, c.IsBelow s k)
      ↔ ∀ x ∈ us, ∀ a ∈ free, a.name = x.1.name → a.Intercepts (s.shifted x.1.range.start) k →
        ∃ y ∈ us, anchorBelow s k y = a := by
  induction us generalizing free with
  | nil => simp [claimsFrom]
  | cons x us ih =>
    obtain ⟨habove, hbelow⟩ := List.pairwise_cons.1 hbelow
    have hne : ∀ y ∈ us, anchorBelow s k y ≠ anchorBelow s k x := fun y hy hyx =>
      Nat.ne_of_gt (habove y hy) (Nat.add_right_cancel (congrArg Anchor.line hyx))
    -- no unit of the list has a line above that of the first one
    have hfirst : ∀ y ∈ x :: us,
        ¬ (anchorBelow s k y).Intercepts (s.shifted x.1.range.start) k := by
      rintro y hy ⟨hlt, -⟩
      simp only [anchorBelow] at hlt
      rcases List.mem_cons.1 hy with rfl | hy
      · omega
      · have := habove y hy
        omega
    have hrest : ∀ y ∈ us, anchorBelow s k y ∈ free.filter (· != anchorBelow s k x) :=
      fun y hy => List.mem_filter.2 ⟨hown y (List.mem_cons_of_mem _ hy), by simpa using hne y hy⟩
    rw [isBelow_claimsFrom_cons_iff (hown x List.mem_cons_self), ih hrest hbelow,
      List.forall_mem_cons]
    refine and_congr ⟨fun h a ha hname hint => absurd hint (h a ha hname), ?_⟩ ⟨?_, ?_⟩
    · intro h a ha hname hint
      obtain ⟨y, hy, rfl⟩ := h a ha hname hint
      exact hfirst y hy hint
    · intro h z hz a ha hname hint
      by_cases hax : a = anchorBelow s k x
      · exact ⟨x, List.mem_cons_self, hax.symm⟩
      · obtain ⟨y, hy, rfl⟩ := h z hz a (List.mem_filter.2 ⟨ha, by simpa using hax⟩) hname hint
        exact ⟨y, List.mem_cons_of_mem _ hy, rfl⟩
    · intro h z hz a ha hname hint
      obtain ⟨ha, hax⟩ := List.mem_filter.1 ha
      obtain ⟨y, hy, rfl⟩ := h z hz a ha hname hint
      rcases List.mem_cons.1 hy with rfl | hy
      · simp at hax
      · exact ⟨y, hy, rfl⟩

/-- What units up to a line claim does not depend on the units below. -/
theorem filter_claimsFrom_start (s : Stripped) (last : Nat) (free : List Anchor)
    {us : List (CodeUnit × Annotation)}
    (h : us.Pairwise fun x y => x.1.range.start < y.1.range.start) :
    (claimsFrom s free us).filter (·.1.1.range.start ≤ last)
      = claimsFrom s free (us.filter (·.1.range.start ≤ last)) := by
  induction us generalizing free with
  | nil => rfl
  | cons x us ih =>
    obtain ⟨hx, hus⟩ := List.pairwise_cons.1 h
    by_cases hle : x.1.range.start ≤ last
    · rw [List.filter_cons_of_pos (by simpa using hle), claimsFrom, claimsFrom]
      cases claim? x.1.name (s.shifted x.1.range.start) free with
      | none => rw [List.filter_cons_of_pos (by simpa using hle), ih free hus]
      | some claimed => rw [List.filter_cons_of_pos (by simpa using hle), ih claimed.2 hus]
    · have hnone : ∀ y ∈ x :: us, ¬ y.1.range.start ≤ last := by
        intro y hy
        rcases List.mem_cons.1 hy with rfl | hy
        · exact hle
        · have := hx y hy
          omega
      have hfilter : (x :: us).filter (·.1.range.start ≤ last) = [] :=
        List.filter_eq_nil_iff.2 fun y hy => by simpa using hnone y hy
      rw [hfilter]
      exact List.filter_eq_nil_iff.2 fun c hc => by simpa using hnone c.1 (mem_of_mem_claimsFrom hc)

/-- What a unit has claimed decides what becomes of it. -/
theorem synchronize_of_mem_claimsOf {text : String} {units : List CodeUnit} {u : CodeUnit}
    {a : Annotation} {line : Nat} (h : ((u, a), some line) ∈ claimsOf l (strip l text) units) :
    (hasSurvivingMark lookback (strip l text).lines line = true →
        ⟨u.id, u.name, .alreadyAnnotated⟩ ∈ (synchronize lookback text l units).skipped)
      ∧ (hasSurvivingMark lookback (strip l text).lines line = false →
        u.id ∈ (synchronize lookback text l units).inserted
          ∧ IsAnnotatedIn l (synchronize lookback text l units).text (strip l text).lines line
            a) := by
  have htreats := treats_synchronize lookback text l units
  refine ⟨fun hmark => ?_, fun hmark => ?_⟩
  · rw [htreats.skipped]
    exact List.mem_map.2 ⟨_, List.mem_filter.2 ⟨h, by simp [Claim.place?, hmark]⟩, rfl⟩
  · have hplaced : ((u, a), line) ∈ placedIn lookback l (strip l text) units :=
      (sortBy_perm _ _).mem_iff.2
        (List.mem_filterMap.2 ⟨_, h, by simp [Claim.place?, hmark]⟩)
    refine ⟨?_, (isAnnotatedIn_synchronize_iff_placed line a).2 ⟨u, hplaced⟩⟩
    rw [htreats.inserted]
    exact List.mem_map.2 ⟨_, hplaced, rfl⟩

/-! ### Inert lines in front -/

instance (line : Line) : Decidable (IsTerminated line) :=
  decidable_of_iff (line.getLast? = some '\n' ∧ '\n' ∉ line.dropLast) <| by
    constructor
    · rintro ⟨hlast, hbody⟩
      exact ⟨line.dropLast, (List.dropLast_append_getLast? _ hlast).symm, hbody⟩
    · rintro ⟨body, rfl, hbody⟩
      simpa using hbody

/-- A complete line that defines nothing, opens no block and tells of none. -/
structure IsInert (l : Language) (line : Line) : Prop where
  terminated : IsTerminated line
  defines : definedName? l line = none
  opens : (LineKind.of l line).isOpener = false
  marks : ∀ mark ∈ survivingMarks, occursIn mark.toList line = false

instance (l : Language) (line : Line) : Decidable (IsInert l line) :=
  decidable_of_iff (IsTerminated line ∧ definedName? l line = none
      ∧ (LineKind.of l line).isOpener = false
      ∧ ∀ mark ∈ survivingMarks, occursIn mark.toList line = false)
    ⟨fun ⟨ht, hd, ho, hm⟩ => ⟨ht, hd, ho, hm⟩, fun h => ⟨h.1, h.2, h.3, h.4⟩⟩

section Inert

variable {front text : String} (hfront : ∀ line ∈ splitLines front.toList, IsInert l line)

include hfront

theorem splitLines_append_inert : splitLines (front ++ text).toList
    = splitLines front.toList ++ splitLines text.toList := by
  have hlines := AreLines.append (fun line hline => (hfront line hline).terminated)
    (areLines_splitLines text.toList)
  have hsplit := splitLines_flatten hlines
  rw [List.flatten_append, flatten_splitLines, flatten_splitLines] at hsplit
  rwa [String.toList_append]

theorem strip_append_inert (hnone : (strip l text).removed = []) :
    strip l (front ++ text) = ⟨splitLines front.toList ++ splitLines text.toList, []⟩ := by
  have hopen : ∀ line ∈ splitLines (front ++ text).toList,
      (LineKind.of l line).isOpener = false := by
    intro line hline
    rw [splitLines_append_inert hfront] at hline
    rcases List.mem_append.1 hline with hline | hline
    · exact (hfront line hline).opens
    · exact isOpener_strip line (lines_of_removed_eq_nil hnone ▸ hline)
  rw [strip_of_not_opener hopen, splitLines_append_inert hfront]

end Inert

/-- Lines that tell of no block can be put in front without changing what is looked back at. -/
theorem hasSurvivingMark_append {above lines : List Line}
    (h : ∀ line ∈ above, ∀ mark ∈ survivingMarks, occursIn mark.toList line = false) (i : Nat) :
    hasSurvivingMark lookback (above ++ lines) (i + above.length)
      = hasSurvivingMark lookback lines i := by
  rw [Bool.eq_iff_iff, hasSurvivingMark_iff, hasSurvivingMark_iff]
  constructor
  · rintro ⟨j, line, mark, hj, hnear, hline, hmark, hoccurs⟩
    rcases Nat.lt_or_ge j above.length with hlt | hge
    · rw [List.getElem?_append_left hlt] at hline
      exact absurd hoccurs (by simp [h line (List.mem_of_getElem? hline) mark hmark])
    · rw [List.getElem?_append_right hge] at hline
      exact ⟨_, line, mark, by omega, by omega, hline, hmark, hoccurs⟩
  · rintro ⟨j, line, mark, hj, hnear, hline, hmark, hoccurs⟩
    refine ⟨j + above.length, line, mark, by omega, by omega, ?_, hmark, hoccurs⟩
    rw [List.getElem?_append_right (Nat.le_add_left _ _), Nat.add_sub_cancel, hline]

/-- With lines in front that define nothing, the anchors are those of the other lines, moved down.
-/
theorem mem_anchorsFrom_append {above lines : List Line}
    (h : ∀ line ∈ above, definedName? l line = none) {a : Anchor} :
    a ∈ anchorsFrom l 0 (above ++ lines)
      ↔ ∃ i, a.line = i + above.length ∧ lines[i]?.bind (definedName? l) = some a.name := by
  obtain ⟨name, j⟩ := a
  rw [mem_anchorsFrom_iff]
  constructor
  · rintro ⟨line, hline, hname⟩
    rcases Nat.lt_or_ge j above.length with hlt | hge
    · rw [List.getElem?_append_left hlt] at hline
      exact absurd hname (by simp [h line (List.mem_of_getElem? hline)])
    · rw [List.getElem?_append_right hge] at hline
      exact ⟨j - above.length, by dsimp only; omega, by rw [hline, Option.bind_some, hname]⟩
  · rintro ⟨i, rfl, hname⟩
    obtain ⟨line, hline, hname⟩ := Option.bind_eq_some_iff.1 hname
    refine ⟨line, ?_, hname⟩
    rw [List.getElem?_append_right (Nat.le_add_left _ _), Nat.add_sub_cancel, hline]

/-! ### Strays -/

/-- A definition of the name of a unit stands above it, in reach if the lines move down by `k`, and
no annotated unit starts there. -/
def HasStray (l : Language) (lines : List Line) (units : List CodeUnit) (k : Nat) (u : CodeUnit) :
    Prop :=
  ∃ i < u.range.start, u.range.start ≤ i + 2 * k
    ∧ lines[i]?.bind (definedName? l) = some u.name
    ∧ ∀ v ∈ units, v.annotation.isSome → v.range.start ≠ i

instance (l : Language) (lines : List Line) (units : List CodeUnit) (k : Nat) (u : CodeUnit) :
    Decidable (HasStray l lines units k u) :=
  inferInstanceAs (Decidable (∃ i < u.range.start, u.range.start ≤ i + 2 * k
    ∧ lines[i]?.bind (definedName? l) = some u.name
    ∧ ∀ v ∈ units, v.annotation.isSome → v.range.start ≠ i))

/-- The annotated units of the name of a unit, down to that unit. -/
def namesakesDownTo (units : List CodeUnit) (u : CodeUnit) : List CodeUnit :=
  units.filter fun v => v.annotation.isSome && v.name == u.name
    && decide (v.range.start ≤ u.range.start)

theorem mem_namesakesDownTo {units : List CodeUnit} {u v : CodeUnit} :
    v ∈ namesakesDownTo units u ↔ v ∈ units ∧ v.annotation.isSome = true ∧ v.name = u.name
      ∧ v.range.start ≤ u.range.start := by
  simp [namesakesDownTo, and_assoc]

theorem mem_annotatedUnits {units : List CodeUnit} {u : CodeUnit} {a : Annotation} :
    (u, a) ∈ annotatedUnits units ↔ u ∈ units ∧ u.annotation = some a := by
  rw [annotatedUnits, (sortBy_perm _ _).mem_iff, List.mem_filterMap]
  constructor
  · rintro ⟨v, hv, hx⟩
    obtain ⟨b, hb, hx⟩ := Option.map_eq_some_iff.1 hx
    obtain ⟨rfl, rfl⟩ := Prod.mk.inj hx
    exact ⟨hv, hb⟩
  · rintro ⟨hu, ha⟩
    exact ⟨u, hu, by rw [ha, Option.map_some]⟩

theorem pairwise_start_annotatedUnits {units : List CodeUnit}
    (h : units.Pairwise fun u v => u.range.start < v.range.start) :
    (annotatedUnits units).Pairwise fun x y => x.1.range.start < y.1.range.start := by
  rw [annotatedUnits_eq h]
  refine List.pairwise_filterMap.2 (h.imp fun {u v} huv x hx y hy => ?_)
  obtain ⟨a, -, rfl⟩ := Option.map_eq_some_iff.1 hx
  obtain ⟨b, -, rfl⟩ := Option.map_eq_some_iff.1 hy
  exact huv

section Namesakes

variable {above lines : List Line} {units : List CodeUnit}
  (habove : ∀ line ∈ above, definedName? l line = none)
  (hstarts : units.Pairwise fun u v => u.range.start < v.range.start)
  (hline : ∀ v ∈ units, lines[v.range.start]?.bind (definedName? l) = some v.name)

include hstarts in
/-- The units of a name down to one of them claim among themselves. -/
theorem claims_namesakesDownTo (s : Stripped) (u : CodeUnit) :
    ∃ us, (∀ v a, (v, a) ∈ us ↔ v ∈ namesakesDownTo units u ∧ v.annotation = some a)
      ∧ us.Pairwise (fun x y => x.1.range.start < y.1.range.start)
      ∧ ∀ c, c ∈ claimsFrom s ((anchorsFrom l 0 s.lines).filter (·.name == u.name)) us
        ↔ c ∈ claimsOf l s units ∧ c.1.1 ∈ namesakesDownTo units u := by
  have hsorted := pairwise_start_annotatedUnits hstarts
  refine ⟨((annotatedUnits units).filter (·.1.name == u.name)).filter
    (·.1.range.start ≤ u.range.start), fun v a => ?_, (hsorted.filter _).filter _, ?_⟩
  · simp only [List.mem_filter, mem_annotatedUnits, mem_namesakesDownTo, beq_iff_eq,
      decide_eq_true_eq, Option.isSome_iff_exists]
    constructor
    · rintro ⟨⟨⟨hv, ha⟩, hname⟩, hstart⟩
      exact ⟨⟨hv, ⟨a, ha⟩, hname, hstart⟩, ha⟩
    · rintro ⟨⟨hv, -, hname, hstart⟩, ha⟩
      exact ⟨⟨⟨hv, ha⟩, hname⟩, hstart⟩
  · rintro ⟨⟨v, a⟩, claimed⟩
    have hclaimed : ((v, a), claimed) ∈ claimsOf l s units →
        v ∈ units ∧ v.annotation.isSome = true := by
      intro hc
      obtain ⟨hv, ha⟩ := mem_annotatedUnits.1 (mem_of_mem_claimsFrom hc)
      exact ⟨hv, by rw [ha, Option.isSome_some]⟩
    rw [← filter_claimsFrom_start s _ _ (hsorted.filter _), ← filter_claimsFrom, ← claimsOf,
      List.mem_filter, List.mem_filter, beq_iff_eq, decide_eq_true_eq, mem_namesakesDownTo]
    constructor
    · rintro ⟨⟨hc, hname⟩, hstart⟩
      exact ⟨hc, (hclaimed hc).1, (hclaimed hc).2, hname, hstart⟩
    · rintro ⟨hc, -, -, hname, hstart⟩
      exact ⟨⟨hc, hname⟩, hstart⟩

include habove

/-- A stray is a line that intercepts and that no annotated unit has for its own. -/
theorem hasStray_iff {u : CodeUnit} : HasStray l lines units above.length u
    ↔ ∃ a ∈ anchorsFrom l 0 (above ++ lines), a.name = u.name
      ∧ a.Intercepts u.range.start above.length
      ∧ ∀ v ∈ units, v.annotation.isSome → v.range.start + above.length ≠ a.line := by
  constructor
  · rintro ⟨i, hi, hreach, hname, hvacant⟩
    refine ⟨⟨u.name, i + above.length⟩, (mem_anchorsFrom_append habove).2 ⟨i, rfl, hname⟩, rfl, ?_,
      fun v hv ha h => hvacant v hv ha (Nat.add_right_cancel h)⟩
    simp only [Anchor.Intercepts]
    omega
  · rintro ⟨a, ha, hname, ⟨hlt, hreach⟩, hvacant⟩
    obtain ⟨i, hplace, hdefines⟩ := (mem_anchorsFrom_append habove).1 ha
    exact ⟨i, by omega, by omega, by rw [hdefines, hname],
      fun v hv ha h => hvacant v hv ha (by rw [h, hplace])⟩

include hstarts hline

/-- Below lines that define nothing, the units of a name down to one of them claim their own lines
exactly if there is no stray above any of them. -/
theorem claims_own_iff (hremoved : s.removed = []) (hs : s.lines = above ++ lines) (u : CodeUnit) :
    (∀ c ∈ claimsOf l s units, c.1.1 ∈ namesakesDownTo units u →
        c.2 = some (c.1.1.range.start + above.length))
      ↔ ∀ v ∈ namesakesDownTo units u, ¬ HasStray l lines units above.length v := by
  have hshifted : ∀ i, s.shifted i = i := shifted_of_removed_eq_nil hremoved
  have hanchor : ∀ v ∈ units, ⟨v.name, v.range.start + above.length⟩ ∈ anchorsFrom l 0 s.lines := by
    intro v hv
    rw [hs]
    exact (mem_anchorsFrom_append habove).2 ⟨_, rfl, hline v hv⟩
  obtain ⟨us, hus, hsorted, hclaims⟩ := claims_namesakesDownTo (l := l) hstarts s u
  have hown : ∀ x ∈ us, anchorBelow s above.length x
      ∈ (anchorsFrom l 0 s.lines).filter (·.name == u.name) := by
    intro x hx
    obtain ⟨hmem, -, hname, -⟩ := mem_namesakesDownTo.1 ((hus x.1 x.2).1 hx).1
    rw [anchorBelow, hshifted]
    exact List.mem_filter.2 ⟨hanchor _ hmem, by simpa using hname⟩
  have hbelow := isBelow_claimsFrom_iff hown (by simpa only [hshifted] using hsorted)
  simp only [Claim.IsBelow, anchorBelow, hshifted, hclaims, and_imp] at hbelow
  refine hbelow.trans ⟨fun h v hv hstray => ?_, fun h x hx a ha hname hint => ?_⟩
  · obtain ⟨a, ha, hname, hint, hvacant⟩ := (hasStray_iff habove).1 hstray
    obtain ⟨-, hannotated, hvname, -⟩ := mem_namesakesDownTo.1 hv
    obtain ⟨b, hb⟩ := Option.isSome_iff_exists.1 hannotated
    obtain ⟨⟨w, c⟩, hw, rfl⟩ := h (v, b) ((hus v b).2 ⟨hv, hb⟩) a
      (List.mem_filter.2 ⟨hs ▸ ha, by simpa using hname.trans hvname⟩) hname hint
    obtain ⟨hw, hc⟩ := (hus w c).1 hw
    exact hvacant w (mem_namesakesDownTo.1 hw).1 (by rw [hc, Option.isSome_some]) rfl
  · obtain ⟨ha, haname⟩ := List.mem_filter.1 ha
    obtain ⟨hv, -⟩ := (hus x.1 x.2).1 hx
    by_contra hnone
    refine h x.1 hv ((hasStray_iff habove).2 ⟨a, hs ▸ ha, hname, hint, ?_⟩)
    intro w hw hannotated hwa
    -- two definitions of one line are one definition, so the unit is a namesake
    have hsame : ⟨w.name, w.range.start + above.length⟩ = a :=
      List.inj_on_of_nodup_map (nodup_line_anchorsFrom l 0 s.lines) (hanchor w hw) ha hwa
    obtain ⟨c, hc⟩ := Option.isSome_iff_exists.1 hannotated
    have hwname : w.name = u.name := by simpa [← hsame] using haname
    have hle := (mem_namesakesDownTo.1 hv).2.2.2
    have hlt := hint.1
    have hw' : w ∈ namesakesDownTo units u :=
      mem_namesakesDownTo.2 ⟨hw, hannotated, hwname, by omega⟩
    exact hnone ⟨(w, c), (hus w c).2 ⟨hw', hc⟩, hsame⟩

end Namesakes

/-- The own definition line of a unit that segmentation has found, annotated or not. -/
theorem definedName?_start {o : SegmentOptions} {text file : String}
    {annot : CodeUnit → Option Annotation} {u : CodeUnit}
    (hu : u ∈ (segment o text file l).map (·.annotatedBy annot)) :
    (splitLines text.toList)[u.range.start]?.bind (definedName? l) = some u.name := by
  obtain ⟨v, hv, rfl⟩ := List.mem_map.1 hu
  obtain ⟨-, line, -, h, -, -, hline, hheader, hname⟩ := own_line_of_mem_segment hv
  have hdefines : definedName? l line = some v.name := by rw [definedName?, hheader, ← hname]; rfl
  exact (congrArg (·.bind (definedName? l)) hline).trans hdefines

/-- A text that has got inert lines in front is synchronized with units found before, any part of
them annotated. The annotated units of a name down to one of them all claim their own definition
lines, as many lines further down as there are new ones, exactly if none of them has a stray. Then
the unit is inserted and its annotation stands directly above its own definition, or it is skipped
for what was to be seen above this line before. -/
theorem synchronize_below_added_lines (o : SegmentOptions) (lookback : Nat)
    (front text file : String) (l : Language) (annot : CodeUnit → Option Annotation)
    (hfront : ∀ line ∈ splitLines front.toList, IsInert l line)
    (hnone : (strip l text).removed = []) :
    let lines := splitLines text.toList
    let k := (splitLines front.toList).length
    let units := (segment o text file l).map (·.annotatedBy annot)
    let s := strip l (front ++ text)
    let out := synchronize lookback (front ++ text) l units
    s = ⟨splitLines front.toList ++ lines, []⟩
      ∧ ∀ u ∈ units, ∀ a, u.annotation = some a →
        ((∀ c ∈ claimsOf l s units, c.1.1 ∈ namesakesDownTo units u →
            c.2 = some (c.1.1.range.start + k))
          ↔ ∀ v ∈ namesakesDownTo units u, ¬ HasStray l lines units k v)
        ∧ ((∀ v ∈ namesakesDownTo units u, ¬ HasStray l lines units k v) →
          (isMarked lookback (strip l text) u = true →
            ⟨u.id, u.name, .alreadyAnnotated⟩ ∈ out.skipped)
          ∧ (isMarked lookback (strip l text) u = false →
            u.id ∈ out.inserted ∧ IsAnnotatedIn l out.text s.lines (u.range.start + k) a)) := by
  intro lines k units s out
  have hs : s = ⟨splitLines front.toList ++ lines, []⟩ := strip_append_inert hfront hnone
  refine ⟨hs, fun u hu a ha => ?_⟩
  have hclaims := claims_own_iff (fun line hline => (hfront line hline).defines)
    (pairwise_start_annotatedBy o text file l annot) (fun v hv => definedName?_start hv)
    (congrArg Stripped.removed hs) (congrArg Stripped.lines hs) u
  refine ⟨hclaims, fun hclear => ?_⟩
  have hunit : (u, a) ∈ (claimsOf l s units).map (·.1) := by
    rw [claimsOf, map_fst_claimsFrom]
    exact mem_annotatedUnits.2 ⟨hu, ha⟩
  obtain ⟨⟨-, claimed⟩, hc, rfl⟩ := List.mem_map.1 hunit
  obtain rfl : claimed = some (u.range.start + k) := hclaims.2 hclear _ hc
    (mem_namesakesDownTo.2 ⟨hu, by rw [ha, Option.isSome_some], rfl, Nat.le_refl _⟩)
  have hmarked : isMarked lookback (strip l text) u
      = hasSurvivingMark lookback s.lines (u.range.start + k) := by
    rw [isMarked, shifted_of_removed_eq_nil hnone, lines_of_removed_eq_nil hnone, hs]
    exact (hasSurvivingMark_append (fun line hline => (hfront line hline).marks) _).symm
  rw [hmarked]
  exact synchronize_of_mem_claimsOf hc

/-- Two functions of one name, so close to each other that the lower one looks at the upper one. -/
theorem synchronize_below_added_lines_close :
    let text := "def g(y):\n  return y\n\ndef g(z):\n  return z\n"
    let front := "# a\n# b\n"
    let units := (segment {} text "a.py" .python).map
      (·.annotatedBy fun u => some ⟨u.name, "", "", "", [], "", u.body⟩)
    ∃ u ∈ units, u.range.start = 3 ∧ ∃ a, u.annotation = some a
      ∧ IsAnnotatedIn .python (synchronize 10 (front ++ text) .python units).text
        (strip .python (front ++ text)).lines 5 a := by
  intro text front units
  have hbelow := (synchronize_below_added_lines {} 10 front text "a.py" .python
    (fun u => some ⟨u.name, "", "", "", [], "", u.body⟩) (by decide +kernel) (by decide +kernel)).2
  obtain ⟨u, hu, hstart, hannotated, hclear, hmark⟩ : ∃ u ∈ units, u.range.start = 3
      ∧ u.annotation.isSome = true
      ∧ (∀ v ∈ namesakesDownTo units u,
        ¬ HasStray .python (splitLines text.toList) units (splitLines front.toList).length v)
      ∧ isMarked 10 (strip .python text) u = false := by
    decide +kernel
  obtain ⟨a, ha⟩ := Option.isSome_iff_exists.1 hannotated
  have hplace := (((hbelow u hu a ha).2 hclear).2 hmark).2
  have hk : u.range.start + (splitLines front.toList).length = 5 := by rw [hstart]; decide +kernel
  exact ⟨u, hu, hstart, a, ha, hk ▸ hplace⟩

/-- Moved down by two lines, a function is taken for the one of its name in the body of another. -/
theorem synchronize_below_added_lines_stray :
    let text := "def f(x):\n    def g(y):\n        return y\n    return g(x)\n\n"
      ++ "def g(z):\n    return z\n"
    let front := "# a\n# b\n"
    let note : Annotation := ⟨"g", "", "", "", [], "", ""⟩
    let units := (segment {} text "a.py" .python).map
      (·.annotatedBy fun u => if u.name == "g" then some note else none)
    let out := synchronize 10 (front ++ text) .python units
    let lines := (strip .python (front ++ text)).lines
    (∀ line ∈ splitLines front.toList, IsInert .python line) ∧ (strip .python text).removed = []
      ∧ units.map (fun u => (u.name, u.range.start)) = [("f", 0), ("g", 5)]
      ∧ (lines[3]? = some "    def g(y):\n".toList ∧ lines[7]? = some "def g(z):\n".toList)
      ∧ IsAnnotatedIn .python out.text lines 3 note
      ∧ ∀ a, ¬ IsAnnotatedIn .python out.text lines 7 a := by
  intro text front note units out lines
  have hplaced : (placedIn 10 .python (strip .python (front ++ text)) units).map
      (fun x => (x.1.2, x.2)) = [(note, 3)] := by
    decide +kernel
  have hmem : ∀ a i, IsAnnotatedIn .python out.text lines i a ↔ (a, i) = (note, 3) := by
    intro a i
    rw [isAnnotatedIn_synchronize_iff_placed, ← List.mem_singleton, ← hplaced, List.mem_map]
    simp only [Prod.exists, Prod.mk.injEq]
    exact ⟨fun ⟨u, hu⟩ => ⟨u, a, i, hu, rfl, rfl⟩, fun ⟨u, _, _, hu, ha, hi⟩ => ⟨u, ha ▸ hi ▸ hu⟩⟩
  refine ⟨by decide +kernel, by decide +kernel, by decide +kernel, by decide +kernel,
    (hmem note 3).2 rfl, fun a h => ?_⟩
  have hline : 7 = 3 := congrArg Prod.snd ((hmem a 7).1 h)
  exact absurd hline (by decide)

end Marginalia
