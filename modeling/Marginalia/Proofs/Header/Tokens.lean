import Marginalia.Proofs.Header.Names
import Marginalia.Proofs.LinePattern.Matching
import Marginalia.Proofs.Text.Lines

/-!
The words of a definition line. White space is no part of a word, so a keyword with white space
behind it takes a word of the line that is this keyword, and no other. A keyword without anything
required behind it also takes the front of a longer word.
-/

namespace Marginalia

open Pattern Shape Text

/-! ### White space and words -/

namespace Text

/-- The members of a set whose turns come in pairs. -/
def CodePointSet.points : List Nat → List Nat
  | lo :: hi :: turns => List.range' lo (hi - lo) ++ points turns
  | _ => []

theorem CodePointSet.mem_points {turns : List Nat} (hsorted : turns.Pairwise (· ≤ ·))
    (heven : turns.length % 2 = 0) {c : Char} (h : mem ⟨turns⟩ c = true) :
    c.toNat ∈ points turns := by
  fun_induction points turns with
  | case1 lo hi turns ih =>
    rw [List.pairwise_cons, List.pairwise_cons] at hsorted
    obtain ⟨hlo, -, hsorted⟩ := hsorted
    have hle : lo ≤ hi := hlo hi List.mem_cons_self
    rw [List.mem_append, List.mem_range'_1]
    by_cases hc : lo ≤ c.toNat ∧ c.toNat < hi
    · exact .inl (by omega)
    · refine .inr (ih hsorted (by simp at heven; omega) ?_)
      -- outside of the pair both of its turns count, or neither
      simp only [mem, List.countP_cons, decide_eq_true_eq, beq_iff_eq] at h ⊢
      split at h <;> split at h <;> omega
  | case2 turns hturns =>
    cases turns with
    | nil => simp [mem] at h
    | cons lo turns =>
      cases turns with
      | nil => simp at heven
      | cons hi turns => exact absurd rfl (hturns lo hi turns)

/-- White space continues no word. -/
theorem isBlank_of_isWord {c : Char} (h : isWord c = true) : isBlank c = false := by
  have hpoints : ∀ n ∈ CodePointSet.points blankSet.turns, isWord (Char.ofNat n) = false := by
    decide +kernel
  rw [Bool.eq_false_iff]
  intro hblank
  have hmem := CodePointSet.mem_points (by decide) (by decide) hblank
  rw [← Char.ofNat_toNat c, hpoints c.toNat hmem] at h
  exact Bool.noConfusion h

end Text

theorem isBlank_of_isDollarWord {c : Char} (h : isDollarWord c = true) : isBlank c = false := by
  rcases Bool.or_eq_true_iff.1 h with hword | hdollar
  · exact isBlank_of_isWord hword
  · rw [beq_iff_eq.1 hdollar]
    decide

theorem isDollarWord_of_isBlank {c : Char} (h : isBlank c = true) : isDollarWord c = false := by
  rw [Bool.eq_false_iff]
  intro hword
  simp [isBlank_of_isDollarWord hword] at h

theorem isDollarWord_of_isWord {c : Char} (h : isWord c = true) : isDollarWord c = true := by
  rw [isDollarWord, h, Bool.true_or]

/-- A text that a word can go on with. -/
def isWordText (text : List Char) : Bool := text.all isDollarWord

theorem isWordText_iff {text : List Char} :
    isWordText text = true ↔ ∀ c ∈ text, isDollarWord c = true := List.all_eq_true

theorem isWord_of_isNameStart {c : Char} (h : isNameStart c = true) : isWord c = true := by
  have hascii : c.toNat < 128 := by
    simp only [isNameStart, isLetter, Bool.or_eq_true, Bool.and_eq_true, decide_eq_true_eq,
      beq_iff_eq, Char.le_def, UInt32.le_iff_toNat_le] at h
    rcases h with (⟨-, h⟩ | ⟨-, h⟩) | rfl
    · exact Nat.lt_of_le_of_lt h (by decide)
    · exact Nat.lt_of_le_of_lt h (by decide)
    · decide
  rw [isWord_of_ascii hascii, isNameChar, h, Bool.true_or]

theorem allBlank_nil : allBlank [] = true := rfl

/-- A line with something visible, and what is left of it without its indentation. -/
theorem visible_line {indent : List Char} {c : Char} (hindent : allBlank indent = true)
    (hc : isBlank c = false) (rest : List Char) :
    allBlank (indent ++ c :: rest) = false ∧ trimStart (indent ++ c :: rest) = c :: rest := by
  refine ⟨?_, trimStart_append_visible (List.all_eq_true.1 hindent) hc rest⟩
  rw [allBlank, List.all_eq_false]
  exact ⟨c, by simp, by simp [hc]⟩

/-- White space that separates, one character of it at least. -/
structure IsGap (blanks : List Char) : Prop where
  nonempty : blanks ≠ []
  blank : allBlank blanks = true

section Words

variable {w blanks s : List Char} {found : Captures} {next : Continuation}

theorem run_gap (hblanks : allBlank blanks = true) (hs : StartsOutside isBlank s) :
    run gap (blanks ++ s) found next = next s found :=
  run_whole (List.all_eq_true.1 hblanks) hs

theorem run_gap_of_visible {c : Char} (hc : isBlank c = false) :
    run gap (c :: s) found next = next (c :: s) found :=
  @run_gap [] (c :: s) found next allBlank_nil (startsOutside_cons.2 hc)

theorem run_gap1 (hblanks : IsGap blanks) (hs : StartsOutside isBlank s) :
    run gap1 (blanks ++ s) found next = next s found := by
  obtain ⟨hne, hall⟩ := hblanks
  obtain ⟨b, blanks, rfl⟩ := List.exists_cons_of_ne_nil hne
  obtain ⟨hb, hblanks⟩ := List.forall_mem_cons.1 (List.all_eq_true.1 hall)
  rw [gap1, run_seq, List.cons_append, run_one_cons hb]
  exact run_gap (List.all_eq_true.2 hblanks) hs

/-- White space leads nowhere where what stands behind it leads nowhere. -/
theorem run_gap1_eq_none (hblanks : allBlank blanks = true) (hs : StartsOutside isBlank s)
    (hnext : next s found = none) : run gap1 (blanks ++ s) found next = none := by
  by_cases hne : blanks = []
  · subst hne
    rw [List.nil_append]
    cases s with
    | nil => rfl
    | cons c s => simp [gap1, run, startsOutside_cons.1 hs]
  · rw [run_gap1 ⟨hne, hblanks⟩ hs, hnext]

theorem IsGap.startsOutside (h : IsGap blanks) : StartsOutside isDollarWord (blanks ++ s) := by
  obtain ⟨hne, hall⟩ := h
  obtain ⟨b, blanks, rfl⟩ := List.exists_cons_of_ne_nil hne
  exact startsOutside_cons.2 (isDollarWord_of_isBlank (List.all_eq_true.1 hall b (by simp)))

/-- White space in front of a text ends a word, and so does the text if there is none. -/
theorem startsOutside_blank_append (hblanks : allBlank blanks = true)
    (hs : StartsOutside isDollarWord s) : StartsOutside isDollarWord (blanks ++ s) :=
  startsOutside_append
    (fun c hc => isDollarWord_of_isBlank (List.all_eq_true.1 hblanks c hc)) hs

theorem rejects_mark {p : Char → Bool} {c : Char} (h : p c = false) {next : Continuation} :
    Rejects p (run (mark c) · · next) := by
  refine rejects_one fun d hd => ?_
  rw [beq_eq_false_iff_ne]
  rintro rfl
  simp [h] at hd

theorem rejects_gap1 : Rejects isDollarWord (run gap1 · · next) :=
  rejects_one fun _ => isBlank_of_isDollarWord

/-! ### Names -/

/-- A text that starts with a character of one class and goes on in another. -/
def isName (first more : Char → Bool) : List Char → Bool
  | [] => false
  | c :: rest => first c && rest.all more

theorem isName_cons {first more : Char → Bool} {c : Char} :
    isName first more (c :: w) = true ↔ first c = true ∧ ∀ d ∈ w, more d = true := by
  rw [isName, Bool.and_eq_true, List.all_eq_true]

theorem exists_of_isName {first more : Char → Bool} (h : isName first more w = true) :
    ∃ c rest, w = c :: rest ∧ first c = true ∧ ∀ d ∈ rest, more d = true := by
  cases w with
  | nil => cases h
  | cons c rest => exact ⟨c, rest, rfl, isName_cons.1 h⟩

theorem forall_of_isName {p first more : Char → Bool} (h : isName first more w = true)
    (hfirst : ∀ c, first c = true → p c = true) (hmore : ∀ c, more c = true → p c = true) :
    ∀ c ∈ w, p c = true := by
  obtain ⟨c, rest, rfl, hc, hrest⟩ := exists_of_isName h
  exact List.forall_mem_cons.2 ⟨hfirst c hc, fun d hd => hmore d (hrest d hd)⟩

theorem startsOutside_of_isName {p first more : Char → Bool} (h : isName first more w = true)
    (hfirst : ∀ c, first c = true → p c = false) : StartsOutside p (w ++ s) := by
  obtain ⟨c, rest, rfl, hc, -⟩ := exists_of_isName h
  exact startsOutside_cons.2 (hfirst c hc)

theorem isEmpty_of_isName {first more : Char → Bool} (h : isName first more w = true) :
    (String.ofList w).isEmpty = false := by
  obtain ⟨c, rest, rfl, -⟩ := exists_of_isName h
  simp

/-- A name is taken to its end where no name can go on behind it. -/
theorem run_name {first more : Char → Bool} (hw : isName first more w = true)
    (hs : StartsOutside more s) (hnext : Rejects more next) :
    run (seq (one first) (span more)) (w ++ s) found next = next s found := by
  obtain ⟨c, rest, rfl, hc, hrest⟩ := exists_of_isName hw
  rw [run_seq, List.cons_append, run_one_cons hc, run_span_of_rejects hnext]
  exact run_whole hrest hs

/-! ### Keywords -/

/-- Where no word goes on behind a word, a text of word characters stands in front of both if it
stands in front of the word. -/
theorem dropFront?_append {kw : List Char} (hkw : isWordText kw = true)
    (hs : StartsOutside isDollarWord s) :
    dropFront? kw (w ++ s) = (dropFront? kw w).map (· ++ s) := by
  induction kw generalizing w with
  | nil => simp [dropFront?]
  | cons k kw ih =>
    obtain ⟨hk, hkw⟩ := Bool.and_eq_true_iff.1 hkw
    cases w with
    | nil =>
      cases s with
      | nil => rfl
      | cons c s =>
        have hne : k ≠ c := by
          rintro rfl
          simp [hk] at hs
        simp [dropFront?, hne]
    | cons c w =>
      simp only [List.cons_append, dropFront?]
      split
      · exact ih hkw
      · rfl

/-- A word takes the front of a word of the line, whatever the rest of it. -/
theorem run_word {kw : String} (hkw : isWordText kw.toList = true)
    (hs : StartsOutside isDollarWord s) :
    run (word kw) (w ++ s) found next
      = (dropFront? kw.toList w).bind fun more => next (more ++ s) found := by
  rw [word, run, dropFront?_append hkw hs]
  cases dropFront? kw.toList w <;> rfl

/-- A word takes a word of the line that is the same, if no word can go on behind it. -/
theorem run_word_of_rejects {kw : String} (hkw : isWordText kw.toList = true)
    (hw : isWordText w = true) (hs : StartsOutside isDollarWord s)
    (hnext : Rejects isDollarWord next) :
    run (word kw) (w ++ s) found next = if w = kw.toList then next s found else none := by
  rw [run_word hkw hs]
  cases hfront : dropFront? kw.toList w with
  | none =>
    have hne : w ≠ kw.toList := by
      rintro rfl
      rw [dropFront?_eq_some_iff.2 (List.append_nil _).symm] at hfront
      cases hfront
    rw [if_neg hne, Option.bind_none]
  | some more =>
    obtain rfl := dropFront?_eq_some_iff.1 hfront
    rw [Option.bind_some]
    cases more with
    | nil => simp
    | cons c more =>
      rw [if_neg (by simp)]
      exact hnext c (more ++ s) found (isWordText_iff.1 hw c (by simp))

/-- A keyword and white space take a word of the line that is the keyword, with white space behind
it. -/
theorem run_spaced {kw : String} (hkw : isWordText kw.toList = true)
    (hw : isWordText w = true) (hblanks : IsGap blanks) (hs : StartsOutside isBlank s) :
    run (spaced kw) (w ++ (blanks ++ s)) found next
      = if w = kw.toList then next s found else none := by
  rw [spaced, run_seq, run_word_of_rejects hkw hw hblanks.startsOutside rejects_gap1,
    run_gap1 hblanks hs]

/-- A keyword that may be missing is left out where it is not the next word of the line, or where
nothing can follow it. -/
theorem run_optional_spaced {kw : String} (hkw : isWordText kw.toList = true)
    (hw : isWordText w = true) (hs : StartsOutside isDollarWord s)
    (hdead : w = kw.toList → run gap1 s found next = none) :
    run (optional (spaced kw)) (w ++ s) found next = next (w ++ s) found := by
  refine run_optional_of_none ?_
  rw [spaced, run_seq, run_word_of_rejects hkw hw hs rejects_gap1]
  split
  · next hkw => exact hdead hkw
  · rfl

/-- Several words take a word of the line that is among them. -/
theorem run_anyOf_of_rejects {kws : List String}
    (hkws : ∀ kw ∈ kws, isWordText kw.toList = true)
    (hw : isWordText w = true) (hs : StartsOutside isDollarWord s)
    (hnext : Rejects isDollarWord next) :
    run (anyOf kws) (w ++ s) found next
      = if w ∈ kws.map String.toList then next s found else none := by
  fun_induction anyOf kws with
  | case1 =>
    rw [List.map_nil, if_neg List.not_mem_nil]
    cases hws : w ++ s <;> rfl
  | case2 kw =>
    simp only [List.map_cons, List.map_nil, List.mem_singleton]
    exact run_word_of_rejects (hkws kw List.mem_cons_self) hw hs hnext
  | case3 kw kws hne ih =>
    have hfirst : run (text kw.toList) (w ++ s) found next
        = if w = kw.toList then next s found else none :=
      run_word_of_rejects (hkws kw List.mem_cons_self) hw hs hnext
    have hothers := ih fun kw' hkw' => hkws kw' (List.mem_cons_of_mem kw hkw')
    rw [run_either, hfirst, hothers, List.map_cons]
    by_cases hkw : w = kw.toList
    · rw [if_pos hkw, if_pos (List.mem_cons.2 (.inl hkw))]
      split <;> simp
    · rw [if_neg hkw, Option.none_or]
      simp [hkw]

theorem rejects_anyOf {p : Char → Bool} {kws : List String}
    (hkws : ∀ kw ∈ kws, kw.toList ≠ [] ∧ StartsOutside p kw.toList) :
    Rejects p (run (anyOf kws) · · next) := by
  fun_induction anyOf kws with
  | case1 => exact rejects_one fun _ _ => rfl
  | case2 kw =>
    obtain ⟨hne, hkw⟩ := hkws kw List.mem_cons_self
    exact rejects_text hne hkw
  | case3 kw kws _ ih =>
    intro c rest found hc
    obtain ⟨hne, hkw⟩ := hkws kw List.mem_cons_self
    have hfirst : run (text kw.toList) (c :: rest) found next = none :=
      rejects_text hne hkw c rest found hc
    have hothers : run (anyOf kws) (c :: rest) found next = none :=
      ih (fun kw' hkw' => hkws kw' (List.mem_cons_of_mem kw hkw')) c rest found hc
    simp [run_either, hfirst, hothers]

end Words

end Marginalia
