import Mathlib.Data.List.TakeWhile
import Mathlib.Tactic.Conv
import Marginalia.AnnotationBlock.Line

/-!
Lines and the text they make up. A text falls into lines in one way only, so lines can be taken out
of a text, and terminated lines put between them, without moving any other line boundary. The module
also relates the two ways in which a line loses its terminator: as the content of a line, and by
cutting every line feed and carriage return at its end.
-/

namespace Marginalia.Text

/-- A line that its line feed ends. -/
def IsTerminated (line : Line) : Prop := ∃ body, line = body ++ ['\n'] ∧ '\n' ∉ body

/-- A line as it stands in a text: not empty, and no line feed in it but perhaps at its end. -/
def IsLine (line : Line) : Prop := IsTerminated line ∨ line ≠ [] ∧ '\n' ∉ line

/-- Lines that stand one behind the other in a text: each but the last is terminated. -/
structure AreLines (lines : List Line) : Prop where
  isLine : ∀ line ∈ lines, IsLine line
  terminated : lines.Pairwise fun line _ => IsTerminated line

theorem IsTerminated.isLine {line : Line} (h : IsTerminated line) : IsLine line := .inl h

/-! ### Cutting a text into lines -/

theorem splitLines_newline (rest : List Char) :
    splitLines ('\n' :: rest) = ['\n'] :: splitLines rest := by
  simp [splitLines, prependChar]

theorem splitLines_of_ne {c : Char} (h : c ≠ '\n') {rest : List Char} {line : Line}
    {lines : List Line} (hrest : splitLines rest = line :: lines) :
    splitLines (c :: rest) = (c :: line) :: lines := by
  rw [splitLines] at hrest
  simp [splitLines, prependChar, h, hrest]

theorem splitLines_terminated {body : List Char} (h : '\n' ∉ body) (rest : List Char) :
    splitLines (body ++ '\n' :: rest) = (body ++ ['\n']) :: splitLines rest := by
  induction body with
  | nil => exact splitLines_newline rest
  | cons c body ih =>
    rw [List.mem_cons, not_or] at h
    exact splitLines_of_ne (Ne.symm h.1) (ih h.2)

theorem splitLines_unterminated {body : List Char} (h : '\n' ∉ body) (hne : body ≠ []) :
    splitLines body = [body] := by
  induction body with
  | nil => exact absurd rfl hne
  | cons c body ih =>
    rw [List.mem_cons, not_or] at h
    cases body with
    | nil => simp [splitLines, prependChar, Ne.symm h.1]
    | cons d body => exact splitLines_of_ne (Ne.symm h.1) (ih h.2 (by simp))

theorem splitLines_eq_nil_iff {text : List Char} : splitLines text = [] ↔ text = [] := by
  constructor
  · intro h
    rw [← flatten_splitLines text, h, List.flatten_nil]
  · rintro rfl
    rfl

/-- A text is cut into lines. -/
theorem areLines_splitLines (text : List Char) : AreLines (splitLines text) := by
  induction text with
  | nil => exact ⟨by simp [splitLines], by simp [splitLines]⟩
  | cons c rest ih =>
    by_cases hc : c = '\n'
    · subst hc
      have hnew : IsTerminated ['\n'] := ⟨[], rfl, by simp⟩
      rw [splitLines_newline]
      refine ⟨fun line hline => ?_, List.pairwise_cons.2 ⟨fun _ _ => hnew, ih.terminated⟩⟩
      rcases List.mem_cons.1 hline with rfl | hline
      · exact hnew.isLine
      · exact ih.isLine line hline
    · cases hrest : splitLines rest with
      | nil =>
        obtain rfl := splitLines_eq_nil_iff.1 hrest
        rw [splitLines_unterminated (by simpa using Ne.symm hc) (by simp)]
        have hline : IsLine [c] := .inr ⟨by simp, by simpa using Ne.symm hc⟩
        exact ⟨by simpa using hline, by simp⟩
      | cons line lines =>
        rw [hrest] at ih
        have hcons : IsTerminated line → IsTerminated (c :: line) := by
          rintro ⟨body, rfl, hbody⟩
          exact ⟨c :: body, rfl, by simpa using ⟨Ne.symm hc, hbody⟩⟩
        have hp := List.pairwise_cons.1 ih.terminated
        rw [splitLines_of_ne hc hrest]
        refine ⟨fun x hx => ?_, List.pairwise_cons.2 ⟨fun y hy => hcons (hp.1 y hy), hp.2⟩⟩
        rcases List.mem_cons.1 hx with rfl | hx
        · refine (ih.isLine line (by simp)).imp hcons fun h => ⟨by simp, ?_⟩
          simpa using ⟨Ne.symm hc, h.2⟩
        · exact ih.isLine x (List.mem_cons_of_mem _ hx)

/-- Lines are found again in the text that they make up. -/
theorem splitLines_flatten {lines : List Line} (h : AreLines lines) :
    splitLines lines.flatten = lines := by
  induction lines with
  | nil => rfl
  | cons line rest ih =>
    have hp := List.pairwise_cons.1 h.terminated
    have hrest : AreLines rest := ⟨fun x hx => h.isLine x (List.mem_cons_of_mem _ hx), hp.2⟩
    rcases h.isLine line (by simp) with ⟨body, rfl, hbody⟩ | ⟨hne, hline⟩
    · rw [List.flatten_cons, List.append_assoc, List.singleton_append,
        splitLines_terminated hbody, ih hrest]
    · cases rest with
      | nil => rw [List.flatten_singleton, splitLines_unterminated hline hne]
      | cons next rest =>
        -- a line in front of another one is terminated
        obtain ⟨body, rfl, -⟩ := hp.1 next (by simp)
        exact absurd (by simp) hline

theorem AreLines.sublist {lines kept : List Line} (h : AreLines lines) (hs : kept.Sublist lines) :
    AreLines kept :=
  ⟨fun line hline => h.isLine line (hs.subset hline), h.terminated.sublist hs⟩

/-- Terminated lines may stand in front of lines. -/
theorem AreLines.append {front lines : List Line} (hf : ∀ line ∈ front, IsTerminated line)
    (h : AreLines lines) : AreLines (front ++ lines) := by
  refine ⟨fun line hline => ?_, List.pairwise_append.2 ⟨?_, h.terminated, fun x hx _ _ => hf x hx⟩⟩
  · exact (List.mem_append.1 hline).elim (fun hx => (hf line hx).isLine) (h.isLine line)
  · exact List.Pairwise.imp_of_mem (fun hx _ _ => hf _ hx)
      (List.pairwise_of_forall fun _ _ => trivial)

/-! ### Contents -/

/-- What ends a line: a line feed, or a carriage return and a line feed. -/
def IsNewline (newline : List Char) : Prop := newline = ['\n'] ∨ newline = ['\r', '\n']

/-- A line is its content with at most a terminator behind it. -/
theorem content_append (line : Line) :
    ∃ tail, line = content line ++ tail ∧ (tail = [] ∨ IsNewline tail) := by
  unfold content
  split
  · next rest h => exact ⟨['\r', '\n'], by simpa using congrArg List.reverse h, .inr (.inr rfl)⟩
  · next rest _ h => exact ⟨['\n'], by simpa using congrArg List.reverse h, .inr (.inl rfl)⟩
  · exact ⟨[], by simp, .inl rfl⟩

theorem content_append_newline {body newline : List Char} (hn : IsNewline newline)
    (hb : body.getLast? ≠ some '\r') : content (body ++ newline) = body := by
  rcases hn with rfl | rfl
  · rcases List.eq_nil_or_concat body with rfl | ⟨front, c, rfl⟩
    · rfl
    · rw [List.concat_eq_append] at hb ⊢
      have hc : c ≠ '\r' := by simpa using hb
      simp [content, hc]
  · simp [content]

theorem content_of_not_mem {line : Line} (h : '\n' ∉ line) : content line = line := by
  rcases content_append line with ⟨tail, hl, rfl | rfl | rfl⟩
  · simpa using hl.symm
  · exact absurd (hl ▸ by simp) h
  · exact absurd (hl ▸ by simp) h

theorem content_terminated (body : List Char) :
    content (body ++ ['\n']) = body ∨ body = content (body ++ ['\n']) ++ ['\r'] := by
  rcases List.eq_nil_or_concat body with rfl | ⟨front, c, rfl⟩
  · exact .inl rfl
  · rw [List.concat_eq_append]
    by_cases hc : c = '\r'
    · exact .inr (by simp [content, hc])
    · exact .inl (by simp [content, hc])

theorem not_mem_content {line : Line} (h : IsLine line) : '\n' ∉ content line := by
  rcases h with ⟨body, rfl, hb⟩ | ⟨-, h⟩
  · rcases content_terminated body with hc | hc
    · rwa [hc]
    · rw [hc] at hb
      exact fun hmem => hb (List.mem_append_left _ hmem)
  · rwa [content_of_not_mem h]

theorem content_cons {c : Char} (hr : c ≠ '\r') (hn : c ≠ '\n') (line : Line) :
    content (c :: line) = c :: content line := by
  rcases List.eq_nil_or_concat line with rfl | ⟨front, d, rfl⟩
  · simp [content, hn]
  · rw [List.concat_eq_append]
    by_cases hd : d = '\n'
    · subst hd
      rcases List.eq_nil_or_concat front with rfl | ⟨front, e, rfl⟩
      · simp [content, hr]
      · rw [List.concat_eq_append]
        by_cases he : e = '\r' <;> simp [content, he]
    · simp [content, hd]

theorem joinLines_cons_cons (c : Char) (line : Line) (lines : List Line) :
    joinLines ((c :: line) :: lines) = c :: joinLines (line :: lines) := by
  cases lines <;> simp [joinLines]

/-- The contents of the lines of a text, with line feeds between them, are the text again, as long
as no line feed ends it and no carriage return can be taken for a part of a terminator. -/
theorem joinLines_contents {text : List Char} (hr : '\r' ∉ text)
    (hlast : text.getLast? ≠ some '\n') : joinLines (contents text) = text := by
  induction text with
  | nil => rfl
  | cons c rest ih =>
    rw [List.mem_cons, not_or] at hr
    cases hrest : splitLines rest with
    | nil =>
      obtain rfl := splitLines_eq_nil_iff.1 hrest
      have hc : c ≠ '\n' := by simpa using hlast
      rw [contents, splitLines_unterminated (by simpa using Ne.symm hc) (by simp)]
      simp [content, joinLines, hc]
    | cons line lines =>
      have hne : rest ≠ [] := fun hnil => by simp [splitLines_eq_nil_iff.2 hnil] at hrest
      rw [List.getLast?_cons_of_ne_nil hne] at hlast
      have ih := ih hr.2 hlast
      by_cases hc : c = '\n'
      · subst hc
        rw [contents, hrest, List.map_cons] at ih
        rw [contents, splitLines_newline, hrest, List.map_cons, List.map_cons]
        simpa [content, joinLines] using ih
      · rw [contents, hrest, List.map_cons] at ih
        rw [contents, splitLines_of_ne hc hrest, List.map_cons,
          content_cons (Ne.symm hr.1) hc, joinLines_cons_cons, ih]

/-! ### Cutting what ends a line -/

theorem dropTrailing_append_of_all {p : Char → Bool} {tail : List Char} (h : ∀ c ∈ tail, p c)
    (text : List Char) : dropTrailing p (text ++ tail) = dropTrailing p text := by
  rw [dropTrailing, dropTrailing, List.reverse_append,
    List.dropWhile_append_of_pos fun c hc => h c (List.mem_reverse.1 hc)]

theorem dropTrailing_append_cons {p : Char → Bool} {c : Char} (h : p c = false)
    (front text : List Char) :
    dropTrailing p (front ++ c :: text) = front ++ c :: dropTrailing p text := by
  rw [dropTrailing, dropTrailing, List.reverse_append, List.reverse_cons, List.append_assoc,
    List.dropWhile_append]
  split
  · next hnil => simp [h, List.isEmpty_iff.1 hnil]
  · simp

/-- Line feeds and carriage returns at the end of a line go beyond its terminator only by carriage
returns. -/
theorem content_eq_withoutTerminator_append {line : Line} (h : IsLine line) :
    ∃ returns, content line = withoutTerminator line ++ returns ∧ ∀ c ∈ returns, c = '\r' := by
  obtain ⟨tail, hl, ht⟩ := content_append line
  have htail : ∀ c ∈ tail, (c == '\r' || c == '\n') = true := by
    rcases ht with rfl | rfl | rfl <;> simp
  have hw : withoutTerminator line = withoutTerminator (content line) := by
    conv_lhs => rw [hl]
    exact dropTrailing_append_of_all htail _
  rw [hw]
  refine ⟨_, (dropTrailing_append _ _).symm, fun c hc => ?_⟩
  have hend := List.mem_takeWhile_imp (List.mem_reverse.1 hc)
  have hmem : c ∈ content line :=
    List.mem_reverse.1 ((List.takeWhile_sublist _).subset (List.mem_reverse.1 hc))
  have hne : c ≠ '\n' := fun hc => not_mem_content h (hc ▸ hmem)
  simpa [hne] using hend

/-! ### White space in front -/

/-- A line that is not blank starts with white space and something visible. -/
theorem exists_visible {line : Line} (h : allBlank line = false) :
    ∃ front c rest, line = front ++ c :: rest ∧ (∀ d ∈ front, isBlank d) ∧ isBlank c = false := by
  induction line with
  | nil => simp [allBlank] at h
  | cons c rest ih =>
    cases hc : isBlank c with
    | false => exact ⟨[], c, rest, rfl, by simp, hc⟩
    | true =>
      obtain ⟨front, d, tail, rfl, hfront, hd⟩ := ih (by simpa [allBlank, hc] using h)
      refine ⟨c :: front, d, tail, rfl, fun e he => ?_, hd⟩
      rcases List.mem_cons.1 he with rfl | he
      · exact hc
      · exact hfront e he

theorem trimStart_append_visible {front : List Char} (hfront : ∀ d ∈ front, isBlank d) {c : Char}
    (hc : isBlank c = false) (rest : List Char) : trimStart (front ++ c :: rest) = c :: rest := by
  rw [trimStart, List.dropWhile_append_of_pos hfront, List.dropWhile_cons_of_neg (by simp [hc])]

theorem not_terminator_of_visible {c : Char} (h : isBlank c = false) :
    (c == '\r' || c == '\n') = false := by
  cases hend : c == '\r' || c == '\n' with
  | false => rfl
  | true =>
    rcases Bool.or_eq_true_iff.1 hend with hc | hc <;> rw [beq_iff_eq.1 hc] at h <;>
      exact absurd h (by decide)

end Marginalia.Text
