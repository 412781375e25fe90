import Marginalia.AnnotationBlock
import Marginalia.Proofs.AnnotationBlock.Removal

/-!
Blocks by themselves. In a text the format of a block is chosen with everything below in view. Cut
out of the text the block is recognized all the same: an end that was not found below is not found
in fewer lines, and an end that was found lies within the block. So the reader of blocks sees in a
removed block what the stripper saw in it.
-/

namespace Marginalia

open Text

namespace BlockFormat

/-! ### Looking for an end in fewer lines -/

theorem lengthTo_take_eq_none {closer : Sentinel} {kinds : List LineKind}
    (h : lengthTo closer kinds = none) (m : Nat) : lengthTo closer (kinds.take m) = none := by
  fun_induction lengthTo closer kinds generalizing m with
  | case1 => exact absurd h (by simp)
  | case2 role rest hrole ih =>
    cases m with
    | zero => rfl
    | succ m =>
      have hrest := ih (Option.map_eq_none_iff.1 h) m
      rw [List.take_succ_cons, lengthTo, if_neg hrole, hrest, Option.map_none]
  | case3 kinds hkinds =>
    cases kinds with
    | nil => simp [lengthTo]
    | cons kind rest =>
      cases m with
      | zero => rfl
      | succ m =>
        cases kind with
        | comment role => exact absurd rfl (hkinds role rest)
        | blank | code => rfl

theorem lengthTo_take_self {closer : Sentinel} {kinds : List LineKind} {n : Nat}
    (h : lengthTo closer kinds = some n) : lengthTo closer (kinds.take n) = some n := by
  fun_induction lengthTo closer kinds generalizing n with
  | case1 rest =>
    obtain rfl := Option.some.inj h
    simp [lengthTo]
  | case2 role rest hrole ih =>
    obtain ⟨m, hm, rfl⟩ := Option.map_eq_some_iff.1 h
    rw [List.take_succ_cons, lengthTo, if_neg hrole, ih hm, Option.map_some]
  | case3 => exact absurd h (by simp)

theorem paddedLength_comment {role : Option Sentinel} (h : role ≠ some .stop)
    (rest : List LineKind) :
    paddedLength (.comment role :: rest) = (paddedLength rest).map (· + 1) := by
  rw [paddedLength]
  exact h

theorem paddedLength_take_eq_none {kinds : List LineKind} (h : paddedLength kinds = none)
    (m : Nat) : paddedLength (kinds.take m) = none := by
  induction kinds generalizing m with
  | nil => simp [paddedLength]
  | cons kind rest ih =>
    cases m with
    | zero => rfl
    | succ m =>
      rw [List.take_succ_cons]
      cases kind with
      | comment role =>
        by_cases hrole : role = some .stop
        · subst hrole
          exact absurd h (by simp [paddedLength])
        · rw [paddedLength_comment hrole, Option.map_eq_none_iff] at h ⊢
          exact ih h m
      | blank =>
        rw [paddedLength, Option.map_eq_none_iff] at h ⊢
        exact ih h m
      | code => rfl

theorem paddedLength_take_self {kinds : List LineKind} {n : Nat} (h : paddedLength kinds = some n) :
    paddedLength (kinds.take n) = some n := by
  induction kinds generalizing n with
  | nil => exact absurd h (by simp [paddedLength])
  | cons kind rest ih =>
    cases kind with
    | comment role =>
      by_cases hrole : role = some .stop
      · subst hrole
        rw [paddedLength] at h
        obtain rfl := Option.some.inj h
        have hblanks := List.takeWhile_prefix (· == LineKind.blank) (l := rest)
        rw [Nat.add_comm, List.take_succ_cons, ← List.prefix_iff_eq_take.1 hblanks, paddedLength,
          List.takeWhile_idem, Nat.add_comm]
      · rw [paddedLength_comment hrole] at h
        obtain ⟨m, hm, rfl⟩ := Option.map_eq_some_iff.1 h
        rw [List.take_succ_cons, paddedLength_comment hrole, ih hm, Option.map_some]
    | blank =>
      rw [paddedLength] at h
      obtain ⟨m, hm, rfl⟩ := Option.map_eq_some_iff.1 h
      rw [List.take_succ_cons, paddedLength, ih hm, Option.map_some]
    | code => exact absurd h (by simp [paddedLength])

/-- Where there is no end, there is none in fewer lines. -/
theorem lengthBy_take_eq_none {e : EndCondition} {kinds : List LineKind}
    (h : lengthBy e kinds = none) (m : Nat) : lengthBy e (kinds.take m) = none := by
  cases e with
  | sentinel | separator => exact lengthTo_take_eq_none h m
  | paddedSentinel => exact paddedLength_take_eq_none h m
  | commentRun | sameLine => exact absurd h (by simp [lengthBy])

/-- An end is found in the lines up to it. -/
theorem lengthBy_take_self {e : EndCondition} {kinds : List LineKind} {n : Nat}
    (h : lengthBy e kinds = some n) : lengthBy e (kinds.take n) = some n := by
  cases e with
  | sentinel | separator => exact lengthTo_take_self h
  | paddedSentinel => exact paddedLength_take_self h
  | commentRun =>
    obtain rfl := Option.some.inj h
    have hcomments := List.takeWhile_prefix LineKind.isComment (l := kinds)
    rw [lengthBy, ← List.prefix_iff_eq_take.1 hcomments, List.takeWhile_idem]
  | sameLine => exact h

/-! ### Recognizing a block alone -/

variable {f : BlockFormat} {kinds : List LineKind}

theorem length?_take_eq_none (h : f.length? kinds = none) (m : Nat) :
    f.length? (kinds.take m) = none := by
  cases kinds with
  | nil => simp [length?]
  | cons kind rest =>
    cases m with
    | zero => rfl
    | succ m =>
      rw [List.take_succ_cons, length?]
      rw [length?] at h
      split at h
      · next hrole =>
        rw [if_pos hrole, lengthBy_take_eq_none (Option.map_eq_none_iff.1 h), Option.map_none]
      · next hrole => rw [if_neg hrole]

theorem length?_take_self {n : Nat} (h : f.length? kinds = some n) :
    f.length? (kinds.take n) = some n := by
  cases kinds with
  | nil => exact absurd h (by simp [length?])
  | cons kind rest =>
    rw [length?] at h
    split at h
    · next hrole =>
      obtain ⟨m, hm, rfl⟩ := Option.map_eq_some_iff.1 h
      rw [List.take_succ_cons, length?, if_pos hrole, lengthBy_take_self hm, Option.map_some]
    · exact absurd h (by simp)

/-- The lines of a block are enough to recognize it: the formats that found no end in the text find
none in the block, and its own format finds its end. -/
theorem recognize?_take_self {n : Nat} (h : recognize? kinds = some (f, n)) :
    recognize? (kinds.take n) = some (f, n) := by
  obtain ⟨before, g, after, hall, hg, hbefore⟩ := List.findSome?_eq_some_iff.1 h
  obtain ⟨m, hm, he⟩ := Option.map_eq_some_iff.1 hg
  cases he
  refine List.findSome?_eq_some_iff.2 ⟨before, f, after, hall, ?_, fun x hx => ?_⟩
  · rw [length?_take_self hm, Option.map_some]
  · rw [length?_take_eq_none (Option.map_eq_none_iff.1 (hbefore x hx)), Option.map_none]

end BlockFormat

/-! ### Reading a removed block -/

variable {l : Language}

theorem commentBody?_of_kind {line : Line} {role : Option Sentinel}
    (h : LineKind.of l line = .comment role) : (commentBody? l line).isSome = true := by
  unfold LineKind.of at h
  split at h
  · exact absurd h (by simp)
  · cases hbody : commentBody? l line with
    | some body => rfl
    | none => rw [hbody] at h; exact absurd h (by simp)

/-- A block has no payload if none of its lines is a plain comment, its first line left out. -/
theorem payload_eq_nil_iff {block : List Line} :
    payload l block = [] ↔ ∀ line ∈ block.drop 1, LineKind.of l line ≠ .comment none := by
  rw [payload, List.filterMap_eq_nil_iff]
  constructor
  · intro h line hline hkind
    have hnone := h line (List.mem_filter.2 ⟨hline, by rw [hkind, beq_self_eq_true]⟩)
    exact absurd (commentBody?_of_kind hkind) (by simp [hnone])
  · intro h line hline
    obtain ⟨hmem, hkind⟩ := List.mem_filter.1 hline
    exact absurd (beq_iff_eq.1 hkind) (h line hmem)

/-- A stray end is one line. -/
theorem length_of_recognize?_strayEnd {kinds : List LineKind} {n : Nat}
    (h : BlockFormat.recognize? kinds = some (.strayEnd, n)) : n = 1 := by
  cases kinds with
  | nil => exact absurd h (by simp [BlockFormat.recognize?, BlockFormat.all, BlockFormat.length?])
  | cons kind rest =>
    obtain ⟨-, m, hm, rfl⟩ := BlockFormat.recognize?_cons h
    obtain rfl := Option.some.inj hm
    rfl

section Alone

variable {block : List Line} {f : BlockFormat}
  (h : BlockFormat.recognize? (block.map (LineKind.of l)) = some (f, block.length))

include h

theorem payload_of_strayEnd (hf : f = .strayEnd) : payload l block = [] := by
  subst hf
  obtain ⟨line, rfl⟩ := List.length_eq_one_iff.1 (length_of_recognize?_strayEnd h)
  rfl

/-- What reading makes of lines that are recognized as a whole. -/
theorem readBlock_of_recognize? :
    readBlock l block = if f = .strayEnd then .error .strayEnd
      else if payload l block = [] then .error (.noPayload f)
      else match Json.readText? Annotation (String.ofList (joinLines (payload l block))) with
        | some a => .ok (f, a)
        | none => .error .unreadable := by
  rw [readBlock, h]
  cases f with
  | strayEnd => rfl
  | _ =>
    simp only [List.take_length, reduceCtorEq, if_false]
    cases payload l block with
    | nil => rfl
    | cons body bodies => rfl

theorem readBlock_eq_ok_iff {g : BlockFormat} {a : Annotation} :
    readBlock l block = .ok (g, a) ↔ g = f
      ∧ Json.readText? Annotation (String.ofList (joinLines (payload l block))) = some a := by
  have hempty : Json.readText? Annotation (String.ofList (joinLines [])) = none := by decide +kernel
  rw [readBlock_of_recognize? h]
  by_cases hnil : payload l block = []
  · rw [hnil, hempty]
    split <;> simp
  · rw [if_neg fun hf => hnil (payload_of_strayEnd h hf), if_neg hnil]
    split
    · next b hread => rw [hread]; simp [eq_comm]
    · next hread => rw [hread]; simp

theorem readBlock_malformed_iff :
    (∃ e, readBlock l block = .error e ∧ e.reason?.isSome = true)
      ↔ f = .strayEnd ∨ ∀ line ∈ block.drop 1, LineKind.of l line ≠ .comment none := by
  rw [← payload_eq_nil_iff, readBlock_of_recognize? h]
  by_cases hf : f = .strayEnd
  · rw [if_pos hf]
    exact ⟨fun _ => .inl hf, fun _ => ⟨.strayEnd, rfl, rfl⟩⟩
  · rw [if_neg hf]
    by_cases hnil : payload l block = []
    · rw [if_pos hnil]
      exact ⟨fun _ => .inr hnil, fun _ => ⟨.noPayload f, rfl, rfl⟩⟩
    · rw [if_neg hnil]
      split <;> simp [hf, hnil, BlockError.reason?]

end Alone

/-- Reading agrees with stripping. Every block that is taken out of a text is recognized by itself,
in the same format and up to its last line. Reading it gives an annotation exactly if its payload is
the JSON text of one, and then in that format; and it is malformed exactly if it is a stray end or
holds no payload line. -/
theorem readBlock_of_removed (l : Language) (text : String) :
    ∀ b ∈ (strip l text).removed, let block := b.linesOf (splitLines text.toList)
      block.length = b.length
        ∧ BlockFormat.recognize? (block.map (LineKind.of l)) = some (b.format, b.length)
        ∧ (∀ f a, readBlock l block = .ok (f, a) ↔ f = b.format
          ∧ Json.readText? Annotation (String.ofList (joinLines (payload l block))) = some a)
        ∧ ((∃ e, readBlock l block = .error e ∧ e.reason?.isSome = true)
          ↔ b.format = .strayEnd ∨ ∀ line ∈ block.drop 1, LineKind.of l line ≠ .comment none) := by
  intro b hb block
  obtain ⟨above, lines, below, htext, hplace, hr⟩ := exists_of_mem_removedFrom hb
  rw [Nat.zero_add] at hplace
  have hblock : block = lines := by
    rw [show block = b.linesOf (splitLines text.toList) from rfl, htext, hplace, linesOf_append]
  have hlength : b.length = lines.length := congrArg RemovedBlock.length hplace
  have halone := BlockFormat.recognize?_take_self hr
  rw [← List.map_take, List.take_left] at halone
  rw [hblock, hlength]
  exact ⟨rfl, halone, fun f a => readBlock_eq_ok_iff halone, readBlock_malformed_iff halone⟩

/-- A block with blank lines in it and behind it reads back; the stray end below it is malformed. -/
theorem readBlock_of_removed_padded :
    let text := "# --- MADL ---\n# \x7b\"method_name\": \"f\"\x7d\n\n# --- END MADL ---\n\n"
      ++ "def f(x):\n  return x\n# --- END MADL ---\n"
    let block (b : RemovedBlock) := b.linesOf (splitLines text.toList)
    (strip .python text).removed = [⟨.paddedDelimited, 0, 5⟩, ⟨.strayEnd, 7, 1⟩]
      ∧ readBlock .python (block ⟨.paddedDelimited, 0, 5⟩)
        = .ok (.paddedDelimited, ⟨"f", "", "", "", [], "", ""⟩)
      ∧ ∃ e, readBlock .python (block ⟨.strayEnd, 7, 1⟩) = .error e ∧ e.reason?.isSome = true := by
  intro text block
  have hremoved : (strip .python text).removed = [⟨.paddedDelimited, 0, 5⟩, ⟨.strayEnd, 7, 1⟩] := by
    decide +kernel
  have hread := readBlock_of_removed .python text
  rw [hremoved] at hread
  exact ⟨hremoved, ((hread _ (by simp)).2.2.1 _ _).2 ⟨rfl, by decide +kernel⟩,
    (hread ⟨.strayEnd, 7, 1⟩ (by simp)).2.2.2.2 (.inl rfl)⟩

end Marginalia
