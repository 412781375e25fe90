import Marginalia.Number.Digit
import Marginalia.Proofs.Segment.Braces

/-!
Character literals of Rust. A literal is told by its form, whatever stands behind it, and is passed
over as a whole, so the braces of a line are those outside of its literals. One literal is an
exception: behind the backslash of an escaped tick the tick itself is taken for the end, and the
tick that ends the literal is read as if it opened another one.
-/

namespace Marginalia

open Text

/-- A character literal with its ticks: a character, a character behind a backslash, or the number
of a character. -/
inductive IsCharLiteral : List Char → Prop
  | plain {c : Char} : c ≠ '\x27' → c ≠ '\\' → IsCharLiteral ['\x27', c, '\x27']
  | escaped (c : Char) : IsCharLiteral ['\x27', '\\', c, '\x27']
  | number {digits : List Char} : digits ≠ [] → digits.length ≤ 6 →
    (∀ d ∈ digits, (Digit.value? 16 d).isSome) →
    IsCharLiteral ('\x27' :: '\\' :: 'u' :: '\x7b' :: digits ++ ['\x7d', '\x27'])

/-- The literal of a tick. -/
def escapedTick : List Char := ['\x27', '\\', '\x27', '\x27']

/-- A tick that opens no literal, by what stands behind it: that of a lifetime. -/
def OpensLifetime (rest : List Char) : Prop :=
  rest.head? ≠ some '\\' ∧ (rest.drop 1).head? ≠ some '\x27'

instance (rest : List Char) : Decidable (OpensLifetime rest) :=
  inferInstanceAs (Decidable (_ ∧ _))

/-- A line of Rust falls into fragments up to a rest of it, literals and lifetimes told by their
form. -/
inductive ReadsUpTo (rest : List Char) : List Char → List Fragment → Prop
  | stop : ReadsUpTo rest rest []
  | comment (text : List Char) : rest = [] →
    ReadsUpTo rest ('/' :: '/' :: text) [.comment ('/' :: '/' :: text)]
  | string {mark : Char} {body more : List Char} {fs : List Fragment} :
    Language.rust.opensString mark → IsQuoted mark body → ReadsUpTo rest more fs →
    ReadsUpTo rest (mark :: body ++ mark :: more) (.string (mark :: body ++ [mark]) :: fs)
  | unclosed {mark : Char} {text : List Char} : rest = [] → Language.rust.opensString mark →
    IsUnclosed mark text → ReadsUpTo rest (mark :: text) [.string (mark :: text)]
  | literal {text more : List Char} {fs : List Fragment} : IsCharLiteral text →
    ReadsUpTo rest more fs → ReadsUpTo rest (text ++ more) (.literal text :: fs)
  | lifetime {more : List Char} {fs : List Fragment} : OpensLifetime more →
    ReadsUpTo rest more fs → ReadsUpTo rest ('\x27' :: more) (.literal ['\x27'] :: fs)
  | code {c : Char} {more : List Char} {fs : List Fragment} : ¬(c = '/' ∧ more.head? = some '/') →
    Language.rust.opensString c = false → c ≠ '\x27' → ReadsUpTo rest more fs →
    ReadsUpTo rest (c :: more) (.code c :: fs)

variable {line rest text : List Char} {fs : List Fragment}

/-! ### Lengths -/

/-- The length of an escape is told by the first tick behind the backslash. -/
theorem charLiteralLength_of_escape {body : List Char} (hbody : '\x27' ∉ body)
    (hshort : body.length < 10) (rest : List Char) :
    charLiteralLength ('\x27' :: '\\' :: body ++ '\x27' :: rest) = body.length + 3 := by
  have hfind : ((body ++ '\x27' :: rest).take 10).findIdx? (· == '\x27') = some body.length := by
    have hnone : body.findIdx? (· == '\x27') = none :=
      List.findIdx?_eq_none_iff.2 fun c hc => beq_false_of_ne fun h => hbody (h ▸ hc)
    obtain ⟨k, hk⟩ := Nat.exists_eq_add_of_lt hshort
    have htake : 10 - body.length = k + 1 := by omega
    rw [List.take_append, List.take_of_length_le (Nat.le_of_lt hshort), htake, List.take_succ_cons,
      List.findIdx?_append, hnone, List.findIdx?_cons]
    simp
  simp only [List.cons_append, charLiteralLength, hfind]

/-- In the literal of a tick that is the tick itself. -/
theorem charLiteralLength_escapedTick (rest : List Char) :
    charLiteralLength (escapedTick ++ rest) = 3 :=
  charLiteralLength_of_escape List.not_mem_nil (Nat.zero_lt_succ 9) ('\x27' :: rest)

theorem not_mem_of_isDigit {digits : List Char} (h : ∀ d ∈ digits, (Digit.value? 16 d).isSome) :
    '\x27' ∉ digits := by
  intro hmem
  exact absurd (h _ hmem) (by decide)

/-- A literal has its own length whatever stands behind it, but for that of a tick. -/
theorem charLiteralLength_append (h : IsCharLiteral text) (rest : List Char) :
    charLiteralLength (text ++ rest) = if text = escapedTick then 3 else text.length := by
  cases h with
  | @plain c htick hslash =>
    have hne : ['\x27', c, '\x27'] ≠ escapedTick := fun heq => by simp [escapedTick] at heq
    rw [if_neg hne]
    simp only [List.cons_append, List.nil_append]
    unfold charLiteralLength
    split
    · rename_i heq
      simp only [List.cons.injEq] at heq
      exact absurd heq.2.1 hslash
    · rfl
    · rename_i hnone
      exact absurd rfl (hnone c rest)
  | escaped c =>
    by_cases htick : c = '\x27'
    · subst htick
      exact (charLiteralLength_escapedTick rest).trans (if_pos rfl).symm
    · have hne : ['\x27', '\\', c, '\x27'] ≠ escapedTick := fun heq => by
        simp [escapedTick, htick] at heq
      have hbody : '\x27' ∉ [c] := by simpa using Ne.symm htick
      rw [if_neg hne]
      exact charLiteralLength_of_escape hbody (by simp) rest
  | @number digits hsome hsix hdigits =>
    have hne : '\x27' :: '\\' :: 'u' :: '\x7b' :: digits ++ ['\x7d', '\x27'] ≠ escapedTick :=
      fun heq => by simp [escapedTick] at heq
    have hbody : '\x27' ∉ 'u' :: '\x7b' :: digits ++ ['\x7d'] := by
      simp [not_mem_of_isDigit hdigits]
    have hlength := charLiteralLength_of_escape hbody (by simp; omega) rest
    rw [if_neg hne]
    simpa using hlength

/-- The tick of a lifetime is read alone. -/
theorem charLiteralLength_of_lifetime (h : OpensLifetime rest) :
    charLiteralLength ('\x27' :: rest) = 1 := by
  obtain ⟨hslash, htick⟩ := h
  unfold charLiteralLength
  split
  · rename_i heq
    obtain ⟨-, rfl⟩ := List.cons.inj heq
    exact absurd rfl hslash
  · rename_i heq
    obtain ⟨-, rfl⟩ := List.cons.inj heq
    exact absurd rfl htick
  · rfl

theorem IsCharLiteral.head? (h : IsCharLiteral text) (rest : List Char) :
    (text ++ rest).head? = some '\x27' := by
  cases h <;> rfl

/-! ### Lines -/

theorem eq_nil_of_lexes_nil {l : Language} (h : Lexes l [] fs) : fs = [] := by
  generalize hline : ([] : List Char) = line at h
  cases h with
  | nil => rfl
  | literal hhead =>
    rw [← hline] at hhead
    cases hhead
  | _ => cases hline

/-- What is read by the form of its literals is read so by their lengths, if none is that of a
tick. -/
theorem ReadsUpTo.lexes (h : ReadsUpTo rest line fs) (hticks : .literal escapedTick ∉ fs)
    {gs : List Fragment} (hrest : Lexes .rust rest gs) : Lexes .rust line (fs ++ gs) := by
  induction h with
  | stop => exact hrest
  | comment text hnil =>
    subst hnil
    obtain rfl := eq_nil_of_lexes_nil hrest
    exact .comment text
  | string hmark hbody _ ih => exact .string hmark hbody (ih (by simpa using hticks))
  | unclosed hnil hmark htext =>
    subst hnil
    obtain rfl := eq_nil_of_lexes_nil hrest
    exact .unclosed hmark htext
  | @literal text more fs htext _ ih =>
    obtain ⟨hne, hticks⟩ : ¬escapedTick = text ∧ .literal escapedTick ∉ fs := by simpa using hticks
    refine .literal (htext.head? more) rfl ?_ (ih hticks)
    rw [charLiteralLength_append htext, if_neg (Ne.symm hne)]
  | lifetime hlife _ ih =>
    have hticks := List.not_mem_of_not_mem_cons hticks
    refine (?_ : Lexes .rust (['\x27'] ++ _) (.literal ['\x27'] :: _))
    exact .literal rfl rfl (charLiteralLength_of_lifetime hlife).symm (ih hticks)
  | code hslash hmark htick _ ih =>
    exact .code hslash hmark htick (ih (by simpa using hticks))

/-- The braces of a line are those of its fragments, and behind them those of the rest. -/
theorem ReadsUpTo.bracesOf_eq (h : ReadsUpTo rest line fs) (hticks : .literal escapedTick ∉ fs) :
    bracesOf .rust line = fs.filterMap Fragment.brace? ++ bracesOf .rust rest := by
  obtain ⟨gs, hgs⟩ := exists_lexes .rust rest
  rw [(h.lexes hticks hgs).bracesOf_eq, List.filterMap_append, hgs.bracesOf_eq]

/-- Behind a literal the reading goes on with the rest, but behind the backslash of an escaped tick
at the tick that ends the literal. -/
theorem bracesOf_literal (h : IsCharLiteral text) (rest : List Char) :
    bracesOf .rust (text ++ rest)
      = bracesOf .rust (if text = escapedTick then '\x27' :: rest else rest) := by
  have hlength := charLiteralLength_append h rest
  split at hlength
  · rename_i htick
    subst htick
    obtain ⟨gs, hgs⟩ := exists_lexes .rust ('\x27' :: rest)
    have hlexes : Lexes .rust (['\x27', '\\', '\x27'] ++ '\x27' :: rest)
        (.literal ['\x27', '\\', '\x27'] :: gs) := .literal rfl rfl hlength.symm hgs
    rw [if_pos rfl]
    exact hlexes.bracesOf_eq.trans hgs.bracesOf_eq.symm
  · rename_i htick
    obtain ⟨gs, hgs⟩ := exists_lexes .rust rest
    have hlexes : Lexes .rust (text ++ rest) (.literal text :: gs) :=
      .literal (h.head? rest) rfl hlength.symm hgs
    rw [if_neg htick]
    exact hlexes.bracesOf_eq.trans hgs.bracesOf_eq.symm

/-! ### Units -/

/-- Lines that are read by the form of their literals have the braces of their fragments. -/
theorem fragmentBraces_of_readsUpTo {lines : List Line} {fss : List (List Fragment)}
    (h : List.Forall₂ (ReadsUpTo []) lines fss) (hticks : ∀ fs ∈ fss, .literal escapedTick ∉ fs)
    (start : Nat) : fragmentBraces start fss = numberedBraces .rust start lines := by
  refine fragmentBraces_eq ?_ start
  induction h with
  | nil => exact .nil
  | @cons line fs lines fss hfs _ ih =>
    have hlexes := hfs.lexes (hticks fs List.mem_cons_self) .nil
    rw [List.append_nil] at hlexes
    exact .cons hlexes (ih fun gs hgs => hticks gs (List.mem_cons_of_mem _ hgs))

/-- Character literals are read as a whole, but for that of a tick. Just the other ones have the
length that is told, whatever stands behind. So the braces of a line in front of a literal are those
outside of literals, and those behind it are the braces of the rest; but the literal of a tick
leaves its last tick to the rest, as if it opened another literal. Where the lines of a unit have no
literal of a tick, the unit ends as the braces outside of its literals say. -/
theorem charLiterals_read_whole (text rest : List Char) (htext : IsCharLiteral text) :
    (charLiteralLength (text ++ rest) = text.length ↔ text ≠ escapedTick)
    ∧ (∀ line fs, ReadsUpTo (text ++ rest) line fs → .literal escapedTick ∉ fs →
      bracesOf .rust line = fs.filterMap Fragment.brace?
        ++ bracesOf .rust (if text = escapedTick then '\x27' :: rest else rest))
    ∧ ∀ (o : SegmentOptions) (lines : List Line) (start : Nat) (fss : List (List Fragment)),
      List.Forall₂ (ReadsUpTo []) (lines.drop start) fss →
      (∀ fs ∈ fss, .literal escapedTick ∉ fs) → ∀ stop,
        braceEnd? o .rust lines start = some stop
          ↔ OpensBy (start + o.braceLookahead) (fragmentBraces start fss)
            ∧ ∃ i, closingLine 0 (fragmentBraces start fss) = some i ∧ stop = i + 1 := by
  refine ⟨?_, fun line fs hreads hticks => ?_, fun o lines start fss hreads hticks stop => ?_⟩
  · rw [charLiteralLength_append htext]
    by_cases htick : text = escapedTick
    · subst htick
      decide
    · simp [htick]
  · rw [hreads.bracesOf_eq hticks, bracesOf_literal htext]
  · rw [fragmentBraces_of_readsUpTo hreads hticks]
    exact braceEnd?_eq_some_iff

/-- A block of code around literals of both braces. -/
def braceLiterals : List Char := "\x7b'\\u\x7b7d\x7d','\x7b'\x7d".toList

/-- Only the braces of the block are counted. -/
theorem charLiterals_read_whole_braces :
    IsCharLiteral "'\x7b'".toList
      ∧ charLiteralLength ("'\x7b'".toList ++ "\x7d".toList) = 3
      ∧ bracesOf .rust braceLiterals = [.opening, .closing] := by
  have hdigits : ∀ d ∈ ['7', 'd'], (Digit.value? 16 d).isSome := List.all_eq_true.1 (by decide)
  have hnumber : IsCharLiteral "'\\u\x7b7d\x7d'".toList := .number (by decide) (by decide) hdigits
  have hbrace : IsCharLiteral "'\x7b'".toList := .plain (by decide) (by decide)
  have hreads : ReadsUpTo ("'\x7b'".toList ++ "\x7d".toList) braceLiterals
      [.code '\x7b', .literal "'\\u\x7b7d\x7d'".toList, .code ','] :=
    .code (by decide) rfl (by decide) <| .literal hnumber <|
      .code (by decide) rfl (by decide) .stop
  have hticks : Fragment.literal escapedTick
      ∉ [.code '\x7b', .literal "'\\u\x7b7d\x7d'".toList, .code ','] := by decide
  obtain ⟨hlength, hbraces, -⟩ := charLiterals_read_whole "'\x7b'".toList "\x7d".toList hbrace
  exact ⟨hbrace, hlength.2 (by decide), hbraces _ _ hreads hticks⟩

/-- A function that returns a tick and a brace, and one behind it. -/
def tickLines : List Line :=
  ["fn marks() -> [char; 2] \x7b".toList, "    ['\\'','\x7b']".toList, "\x7d".toList,
    "fn next() \x7b\x7d".toList]

/-- The literal of a tick is taken for shorter than it is, so that the brace in the literal behind
it is counted and the function does not end behind its own brace. -/
theorem escapedTick_misread :
    (∃ text, IsCharLiteral text ∧ charLiteralLength text ≠ text.length)
      ∧ (∃ fs, ReadsUpTo [] "['\\'','\x7b']".toList fs ∧ fs.filterMap Fragment.brace? = [])
      ∧ bracesOf .rust "['\\'','\x7b']".toList = [.opening]
      ∧ unitEnd {} .rust tickLines 0 = 2 := by
  have hreads : ReadsUpTo [] "['\\'','\x7b']".toList [.code '[', .literal escapedTick, .code ',',
      .literal "'\x7b'".toList, .code ']'] :=
    .code (by decide) rfl (by decide) <| .literal (.escaped '\x27') <|
      .code (by decide) rfl (by decide) <| .literal (.plain (by decide) (by decide)) <|
      .code (by decide) rfl (by decide) .stop
  exact ⟨⟨escapedTick, .escaped '\x27', by decide⟩, ⟨_, hreads, rfl⟩, by decide, by decide +kernel⟩

end Marginalia
