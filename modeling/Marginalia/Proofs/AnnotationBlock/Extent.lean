import Marginalia.Proofs.AnnotationBlock.Removal

/-!
How far a block reaches. The search for the end of a block passes over comments, and in one format
over blank lines, until it comes to what ends the block; a further opening sentinel is a comment to
it. So a block is only one block where something ends it above the next opening sentinel, and where
nothing does, it takes the following block along, with all that stands between them.
-/

namespace Marginalia

open Text

/-- The line opens a block that holds something. -/
def LineKind.opensBlock (kind : LineKind) : Bool :=
  kind.role == some .start || kind.role == some .metadata

/-- The search for the end of a block goes on behind such a line. -/
def EndCondition.passes : EndCondition → LineKind → Bool
  | .sentinel, .comment role | .paddedSentinel, .comment role => role != some .stop
  | .separator, .comment role => role != some .separator
  | .commentRun, .comment _ | .paddedSentinel, .blank => true
  | _, _ => false

namespace BlockFormat

/-! ### What a search passes over -/

variable {kinds : List LineKind} {kind : LineKind} {n j : Nat}

theorem lt_lengthTo_iff {closer : Sentinel} {passes : LineKind → Bool}
    (hpasses : ∀ role, passes (.comment role) = (role != some closer))
    (hcloser : (LineKind.comment (some closer)).opensBlock = false)
    (h : lengthTo closer kinds = some n) (hj : kinds[j]? = some kind)
    (hopens : kind.opensBlock = true) : j < n ↔ ∀ k ∈ kinds.take j, passes k = true := by
  fun_induction lengthTo closer kinds generalizing n j with
  | case1 rest =>
    obtain rfl := Option.some.inj h
    cases j with
    | zero =>
      obtain rfl := Option.some.inj hj
      exact absurd hopens (by simp [hcloser])
    | succ j => simp [hpasses]
  | case2 role rest hrole ih =>
    obtain ⟨m, hm, rfl⟩ := Option.map_eq_some_iff.1 h
    cases j with
    | zero => simp
    | succ j => simpa [hpasses, hrole] using ih hm hj
  | case3 => exact absurd h (by simp)

theorem lt_paddedLength_iff (h : paddedLength kinds = some n) (hj : kinds[j]? = some kind)
    (hopens : kind.opensBlock = true) :
    j < n ↔ ∀ k ∈ kinds.take j, EndCondition.paddedSentinel.passes k = true := by
  fun_induction paddedLength kinds generalizing n j with
  | case1 rest =>
    obtain rfl := Option.some.inj h
    cases j with
    | zero =>
      obtain rfl := Option.some.inj hj
      exact absurd hopens (by decide)
    | succ j =>
      -- the lines behind the end are blank, so neither side holds
      refine ⟨fun hlt => ?_,
        fun hall => absurd (hall (.comment (some .stop)) (by simp)) (by decide)⟩
      have hblank : j < (rest.takeWhile (· == .blank)).length := by omega
      have hsplit := List.takeWhile_append_dropWhile (p := (· == LineKind.blank)) (l := rest)
      rw [List.getElem?_cons_succ, ← hsplit, List.getElem?_append_left hblank] at hj
      have hkind := List.mem_takeWhile_imp (List.mem_of_getElem? hj)
      exact absurd hopens (by rw [beq_iff_eq.1 hkind]; decide)
  | case2 role rest hrole ih =>
    obtain ⟨m, hm, rfl⟩ := Option.map_eq_some_iff.1 h
    have hpass : EndCondition.paddedSentinel.passes (.comment role) = true := by
      simpa [EndCondition.passes] using hrole
    cases j with
    | zero => simp
    | succ j => simpa [hpass] using ih hm hj
  | case3 rest ih =>
    obtain ⟨m, hm, rfl⟩ := Option.map_eq_some_iff.1 h
    have hpass : EndCondition.paddedSentinel.passes .blank = true := rfl
    cases j with
    | zero => simp
    | succ j => simpa [hpass] using ih hm hj
  | case4 => exact absurd h (by simp)

theorem lt_commentRun_iff (hj : kinds[j]? = some kind) (hopens : kind.opensBlock = true) :
    j < (kinds.takeWhile (·.isComment)).length
      ↔ ∀ k ∈ kinds.take j, EndCondition.commentRun.passes k = true := by
  induction kinds generalizing j with
  | nil => exact absurd hj (by simp)
  | cons head rest ih =>
    cases j with
    | zero =>
      obtain rfl := Option.some.inj hj
      cases head with
      | comment role => simp [LineKind.isComment]
      | blank | code => exact absurd hopens (by decide)
    | succ j =>
      cases head with
      | comment role => simpa [LineKind.isComment, EndCondition.passes] using ih hj
      | blank | code => simp [LineKind.isComment, EndCondition.passes]

/-- A block reaches over an opening sentinel exactly if the search for its end passes over all that
stands above it. -/
theorem lt_lengthBy_iff {e : EndCondition} (h : lengthBy e kinds = some n)
    (hj : kinds[j]? = some kind) (hopens : kind.opensBlock = true) :
    j < n ↔ e ≠ .sameLine ∧ ∀ k ∈ kinds.take j, e.passes k = true := by
  cases e with
  | sentinel | separator => simpa using lt_lengthTo_iff (fun _ => rfl) rfl h hj hopens
  | paddedSentinel => simpa using lt_paddedLength_iff h hj hopens
  | commentRun =>
    obtain rfl := Option.some.inj h
    simpa using lt_commentRun_iff hj hopens
  | sameLine =>
    obtain rfl := Option.some.inj h
    simp

theorem opensBlock_of_role {f : BlockFormat} (hf : f ≠ .strayEnd) (h : kind.role = some f.opener) :
    kind.opensBlock = true := by
  rw [LineKind.opensBlock, h]
  cases f <;> first | rfl | exact absurd rfl hf

end BlockFormat

/-! ### Removed blocks -/

variable {l : Language}

/-- The lines between two lines of the given numbers. -/
def linesBetween (lines : List Line) (i j : Nat) : List Line :=
  (lines.drop (i + 1)).take (j - (i + 1))

theorem mem_linesBetween {lines : List Line} {i j k : Nat} {line : Line} (hi : i < k) (hj : k < j)
    (h : lines[k]? = some line) : line ∈ linesBetween lines i j := by
  refine List.mem_of_getElem? (i := k - (i + 1)) ?_
  rw [linesBetween, List.getElem?_take_of_lt (by omega), List.getElem?_drop,
    Nat.add_sub_cancel' hi, h]

/-- A removed block in its place, its first line apart. -/
theorem exists_opener_of_mem_removed {text : String} {b : RemovedBlock}
    (hb : b ∈ (strip l text).removed) :
    ∃ above opener inner below, splitLines text.toList = above ++ opener :: (inner ++ below)
      ∧ b.start = above.length ∧ b.length = inner.length + 1
      ∧ (LineKind.of l opener).role = some b.format.opener
      ∧ BlockFormat.lengthBy b.format.endCondition ((inner ++ below).map (LineKind.of l))
        = some inner.length := by
  obtain ⟨above, block, below, htext, hplace, hr⟩ := exists_of_mem_removedFrom hb
  rw [Nat.zero_add] at hplace
  cases block with
  | nil => exact absurd (BlockFormat.recognize?_pos hr) (by simp)
  | cons opener inner =>
    obtain ⟨hrole, m, hm, hlength⟩ := BlockFormat.recognize?_cons hr
    obtain rfl : inner.length = m := by simpa using hlength
    exact ⟨above, opener, inner, below, htext, congrArg RemovedBlock.start hplace,
      congrArg RemovedBlock.length hplace, hrole, hm⟩

/-- A removed block reaches over an opening sentinel below its own one exactly if nothing between
them ends it. -/
theorem covers_iff_passes {text : String} {b : RemovedBlock} (hb : b ∈ (strip l text).removed)
    {j : Nat} {line : Line} (hlt : b.start < j) (hj : (splitLines text.toList)[j]? = some line)
    (hopens : (LineKind.of l line).opensBlock = true) :
    b.covers j = true ↔ b.format ≠ .strayEnd
      ∧ ∀ x ∈ linesBetween (splitLines text.toList) b.start j,
        b.format.endCondition.passes (LineKind.of l x) = true := by
  obtain ⟨above, opener, inner, below, htext, hstart, hlength, -, hend⟩ :=
    exists_opener_of_mem_removed hb
  obtain ⟨k, rfl⟩ := Nat.exists_eq_add_of_le (hstart ▸ Nat.succ_le_of_lt hlt)
  rw [htext, List.getElem?_append_right (by omega)] at hj
  rw [show above.length.succ + k - above.length = k + 1 by omega, List.getElem?_cons_succ] at hj
  have hkind : ((inner ++ below).map (LineKind.of l))[k]? = some (LineKind.of l line) := by
    rw [List.getElem?_map, hj, Option.map_some]
  have hbetween : linesBetween (splitLines text.toList) b.start (above.length.succ + k)
      = (inner ++ below).take k := by
    rw [linesBetween, htext, hstart, List.drop_append, List.drop_eq_nil_of_le (Nat.le_succ _)]
    simp
  have hcovers : b.covers (above.length.succ + k) = true ↔ k < inner.length := by
    simp [RemovedBlock.covers, hstart, hlength]
    omega
  have hformat : b.format.endCondition ≠ .sameLine ↔ b.format ≠ .strayEnd := by
    cases b.format <;> simp [BlockFormat.endCondition]
  rw [hcovers, hbetween, BlockFormat.lt_lengthBy_iff hend hkind hopens, hformat, ← List.map_take,
    List.forall_mem_map]

/-- Below a removed block everything stays up to the next sentinel. -/
theorem not_covers_below {text : String} {b : RemovedBlock} (hb : b ∈ (strip l text).removed)
    {i : Nat} (hi : b.start + b.length ≤ i)
    (hnone : ∀ line ∈ linesBetween (splitLines text.toList) (b.start + b.length - 1) (i + 1),
      (LineKind.of l line).isOpener = false) :
    ∀ c ∈ (strip l text).removed, c.covers i = false := by
  intro c hc
  by_contra hcovers
  obtain ⟨hle, hlt⟩ : c.start ≤ i ∧ i < c.start + c.length := by
    simpa [RemovedBlock.covers] using hcovers
  -- of two removed blocks one ends before the other one starts
  have hbelow : b.start + b.length ≤ c.start := by
    obtain ⟨m, hm, rfl⟩ := List.mem_iff_getElem.1 hb
    obtain ⟨k, hk, rfl⟩ := List.mem_iff_getElem.1 hc
    have hapart := List.pairwise_iff_getElem.1
      (pairwise_removedFrom 0 (pieces l (splitLines text.toList)))
    rcases Nat.lt_trichotomy m k with h | rfl | h
    · exact hapart m k hm hk h
    · omega
    · have habove := hapart k m hk hm h
      exact absurd habove (by simp only [strip] at *; omega)
  obtain ⟨above, opener, inner, below, htext, hstart, -, hrole, -⟩ :=
    exists_opener_of_mem_removed hc
  have hopener : (splitLines text.toList)[c.start]? = some opener := by simp [htext, hstart]
  have hpos := length_pos_of_mem_removedFrom hb
  have hstays := hnone opener (mem_linesBetween (by omega) (Nat.lt_succ_of_le hle) hopener)
  rw [LineKind.isOpener, hrole] at hstays
  exact absurd hstays (by cases c.format <;> decide)

/-- A removed block has one opening sentinel exactly if something ends it above each one below. -/
theorem countP_opensBlock_eq_one_iff {text : String} {b : RemovedBlock}
    (hb : b ∈ (strip l text).removed) (hf : b.format ≠ .strayEnd) :
    (b.linesOf (splitLines text.toList)).countP (fun line => (LineKind.of l line).opensBlock) = 1
      ↔ ∀ j line, b.start < j → (splitLines text.toList)[j]? = some line →
        (LineKind.of l line).opensBlock = true →
        ∃ x ∈ linesBetween (splitLines text.toList) b.start j,
          b.format.endCondition.passes (LineKind.of l x) = false := by
  obtain ⟨above, opener, inner, below, htext, hstart, hlength, hrole, -⟩ :=
    exists_opener_of_mem_removed hb
  have hblock : b.linesOf (splitLines text.toList) = opener :: inner := by
    simp [RemovedBlock.linesOf, htext, hstart, hlength]
  have hbehind : ∀ k, (splitLines text.toList)[b.start + 1 + k]? = (inner ++ below)[k]? := by
    intro k
    rw [htext, hstart, List.getElem?_append_right (by omega),
      show above.length + 1 + k - above.length = k + 1 by omega, List.getElem?_cons_succ]
  rw [hblock, List.countP_cons_of_pos (by exact BlockFormat.opensBlock_of_role hf hrole),
    Nat.add_eq_right, List.countP_eq_zero]
  constructor
  · intro hone j line hlt hj hopens
    by_contra hnone
    have hcovers := (covers_iff_passes hb hlt hj hopens).2 ⟨hf, by simpa using hnone⟩
    obtain ⟨k, rfl⟩ := Nat.exists_eq_add_of_le hlt
    have hk : k < inner.length := by
      simp only [RemovedBlock.covers, hlength, Bool.and_eq_true, decide_eq_true_eq] at hcovers
      omega
    rw [Nat.succ_eq_add_one, hbehind, List.getElem?_append_left hk] at hj
    exact hone line (List.mem_of_getElem? hj) hopens
  · intro hends line hline hopens
    obtain ⟨k, hk, rfl⟩ := List.mem_iff_getElem.1 hline
    have hj : (splitLines text.toList)[b.start + 1 + k]? = some inner[k] := by
      rw [hbehind, List.getElem?_append_left hk, List.getElem?_eq_getElem hk]
    have hcovers : b.covers (b.start + 1 + k) = true := by
      simp [RemovedBlock.covers, hlength]
      omega
    obtain ⟨x, hx, hend⟩ := hends _ _ (by omega) hj hopens
    have hpass := ((covers_iff_passes hb (by omega) hj hopens).1 hcovers).2 x hx
    exact absurd hpass (by simp [hend])

/-- What a removed block holds. It starts with the sentinel that opens it. A stray end is nothing
but its sentinel; any other block has no further opening sentinel exactly if above each one below it
stands a line that ends the block. From its end up to the next sentinel everything stays. -/
theorem removed_block_is_one_iff (l : Language) (text : String) :
    ∀ b ∈ (strip l text).removed, let lines := splitLines text.toList
      (∃ line, lines[b.start]? = some line ∧ (LineKind.of l line).role = some b.format.opener)
        ∧ (b.format = .strayEnd → b.length = 1)
        ∧ (b.format ≠ .strayEnd →
          ((b.linesOf lines).countP (fun line => (LineKind.of l line).opensBlock) = 1
            ↔ ∀ j line, b.start < j → lines[j]? = some line →
              (LineKind.of l line).opensBlock = true → ∃ x ∈ linesBetween lines b.start j,
                b.format.endCondition.passes (LineKind.of l x) = false))
        ∧ ∀ i, b.start + b.length ≤ i →
          (∀ line ∈ linesBetween lines (b.start + b.length - 1) (i + 1),
            (LineKind.of l line).isOpener = false) →
          ∀ c ∈ (strip l text).removed, c.covers i = false := by
  intro b hb lines
  obtain ⟨above, opener, inner, below, htext, hstart, hlength, hrole, hend⟩ :=
    exists_opener_of_mem_removed hb
  refine ⟨⟨opener, by simp [lines, htext, hstart], hrole⟩, fun hf => ?_,
    fun hf => countP_opensBlock_eq_one_iff hb hf, fun i hi => not_covers_below hb hi⟩
  rw [hf] at hend
  have hnone := Option.some.inj hend
  omega

/-- A comment between a closed block and an open one belongs to neither. -/
theorem removed_block_is_one_iff_closed :
    let text := "# --- MADL ---\n# --- END MADL ---\n# note\n# --- MADL ---\n# open\n"
    let lines := splitLines text.toList
    ∃ b ∈ (strip .python text).removed, b.format = .delimited
      ∧ (b.linesOf lines).countP (fun line => (LineKind.of .python line).opensBlock) = 1
      ∧ ∀ c ∈ (strip .python text).removed, c.covers 2 = false := by
  intro text lines
  have hb : ⟨.delimited, 0, 2⟩ ∈ (strip .python text).removed := by decide +kernel
  have hend : lines[1]? = some "# --- END MADL ---\n".toList := by decide +kernel
  obtain ⟨-, -, hone, hbelow⟩ := removed_block_is_one_iff .python text _ hb
  refine ⟨_, hb, rfl, (hone (by decide)).2 fun j line hlt hj hopens => ?_,
    hbelow 2 (Nat.le_refl 2) (by decide +kernel)⟩
  rcases Nat.lt_or_eq_of_le (Nat.succ_le_of_lt hlt) with hbehind | rfl
  · exact ⟨_, mem_linesBetween (Nat.zero_lt_one) hbehind hend, by decide +kernel⟩
  · obtain rfl := Option.some.inj (hend.symm.trans hj)
    exact absurd hopens (by decide +kernel)

/-- A block without an end takes the next one along, and the comment between them. -/
theorem removed_block_swallows_next :
    let text := "# --- MADL ---\n# a\n\n# note\n\n# --- MADL ---\n# b\n# --- END MADL ---\nx = 1\n"
    strip .python text = ⟨["x = 1\n".toList], [⟨.paddedDelimited, 0, 8⟩]⟩
      ∧ (RemovedBlock.linesOf ⟨.paddedDelimited, 0, 8⟩ (splitLines text.toList)).countP
        (fun line => (LineKind.of .python line).opensBlock) = 2 := by
  decide +kernel

end Marginalia
