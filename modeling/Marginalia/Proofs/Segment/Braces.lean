import Mathlib.Data.List.Forall2
import Mathlib.Data.List.GetD
import Marginalia.Proofs.Segment

/-!
The braces that end a unit, in two steps. A line falls into fragments: strings, character literals,
a comment, and single characters of code. The braces of the code, each with the number of its line,
make up a sequence, and what is looked for is its shortest balanced beginning. Reading the lines
once, character by character, with no more to remember than an open string and a depth, finds it.
-/

namespace Marginalia

open Text

variable {l : Language}

/-! ### Fragments of a line -/

/-- A part of a line. -/
inductive Fragment where
  /-- A single character of the code. -/
  | code (c : Char)
  /-- A string with its marks; one that is not closed goes on to the end of the line. -/
  | string (text : List Char)
  /-- A character literal with its marks, or the tick of a lifetime. -/
  | literal (text : List Char)
  /-- A comment with its mark. -/
  | comment (text : List Char)
  deriving DecidableEq, Repr

/-- The characters of a fragment. -/
def Fragment.text : Fragment → List Char
  | code c => [c]
  | string text | literal text | comment text => text

/-- The brace that a fragment is. -/
def Fragment.brace? : Fragment → Option Brace
  | code '\x7b' => some .opening
  | code '\x7d' => some .closing
  | _ => none

theorem Fragment.brace?_code {c : Char} (hopen : c ≠ '\x7b') (hclose : c ≠ '\x7d') :
    (code c).brace? = none := by
  unfold brace?
  split <;> simp_all

/-- The characters that open a string. -/
def Language.opensString (l : Language) (c : Char) : Bool :=
  c == '"' || c == '\x60' || c == '\x27' && l.singleQuoteOpensString

/-- Text inside a string with a mark: no mark in it, and no backslash, unless it is escaped. -/
inductive IsQuoted (mark : Char) : List Char → Prop
  | nil : IsQuoted mark []
  | escaped (c : Char) {text : List Char} : IsQuoted mark text → IsQuoted mark ('\\' :: c :: text)
  | plain {c : Char} {text : List Char} : c ≠ mark → c ≠ '\\' → IsQuoted mark text →
    IsQuoted mark (c :: text)

/-- Text inside a string that no mark closes: a backslash may end it. -/
def IsUnclosed (mark : Char) (text : List Char) : Prop :=
  ∃ body, IsQuoted mark body ∧ (text = body ∨ text = body ++ ['\\'])

/-- A line falls into fragments. -/
inductive Lexes (l : Language) : List Char → List Fragment → Prop
  | nil : Lexes l [] []
  | comment (text : List Char) : Lexes l ('/' :: '/' :: text) [.comment ('/' :: '/' :: text)]
  | string {mark : Char} {body rest : List Char} {fs : List Fragment} : l.opensString mark →
    IsQuoted mark body → Lexes l rest fs →
    Lexes l (mark :: body ++ mark :: rest) (.string (mark :: body ++ [mark]) :: fs)
  | unclosed {mark : Char} {text : List Char} : l.opensString mark → IsUnclosed mark text →
    Lexes l (mark :: text) [.string (mark :: text)]
  | literal {text rest : List Char} {fs : List Fragment} :
    (text ++ rest).head? = some '\x27' → l.singleQuoteOpensString = false →
    text.length = charLiteralLength (text ++ rest) → Lexes l rest fs →
    Lexes l (text ++ rest) (.literal text :: fs)
  | code {c : Char} {rest : List Char} {fs : List Fragment} :
    ¬(c = '/' ∧ rest.head? = some '/') → l.opensString c = false → c ≠ '\x27' →
    Lexes l rest fs → Lexes l (c :: rest) (.code c :: fs)

/-- The fragments of a line are the line. -/
theorem Lexes.flatMap_text {line : Line} {fs : List Fragment} (h : Lexes l line fs) :
    fs.flatMap Fragment.text = line := by
  induction h with
  | nil => rfl
  | comment text => simp [Fragment.text]
  | string _ _ _ ih => simp [Fragment.text, ih]
  | unclosed => simp [Fragment.text]
  | literal _ _ _ _ ih => simp [Fragment.text, ih]
  | code _ _ _ _ ih => simp [Fragment.text, ih]

/-! ### Strings and literals -/

theorem bracesFrom_skip (quote : Option Char) (text rest : List Char) :
    bracesFrom l quote text.length (text ++ rest) = bracesFrom l quote 0 rest := by
  induction text with
  | nil => rfl
  | cons c text ih =>
    rw [List.cons_append, List.length_cons, bracesFrom]
    exact ih

theorem charLiteralLength_pos (text : List Char) : 0 < charLiteralLength text := by
  unfold charLiteralLength
  repeat' split
  all_goals omega

theorem Language.opensString_ne {mark : Char} (h : l.opensString mark = true) : mark ≠ '\\' := by
  rintro rfl
  simp [Language.opensString] at h

/-- A string is passed over up to its mark. -/
theorem IsQuoted.bracesFrom_append {mark : Char} {body : List Char} (h : IsQuoted mark body)
    (rest : List Char) :
    bracesFrom l (some mark) 0 (body ++ rest) = bracesFrom l (some mark) 0 rest := by
  induction h with
  | nil => rfl
  | escaped c _ ih =>
    rw [List.cons_append, List.cons_append, bracesFrom, if_pos rfl, bracesFrom]
    exact ih
  | plain hmark hslash _ ih =>
    rw [List.cons_append, bracesFrom, if_neg hslash, if_neg hmark]
    exact ih

theorem IsUnclosed.bracesFrom_eq_nil {mark : Char} {text : List Char} (h : IsUnclosed mark text) :
    bracesFrom l (some mark) 0 text = [] := by
  obtain ⟨body, hbody, rfl | rfl⟩ := h
  · have hnone := hbody.bracesFrom_append (l := l) []
    rwa [List.append_nil] at hnone
  · rw [hbody.bracesFrom_append]
    rfl

theorem bracesFrom_string {mark : Char} (h : l.opensString mark = true) (rest : List Char) :
    bracesFrom l none 0 (mark :: rest) = bracesFrom l (some mark) 0 rest := by
  have hmark : mark = '"' ∨ mark = '\x60' ∨ mark = '\x27' ∧ l.singleQuoteOpensString = true := by
    simpa [Language.opensString, or_assoc] using h
  rw [bracesFrom]
  rcases hmark with rfl | rfl | ⟨rfl, hquote⟩
  · simp
  · simp
  · simp [hquote]

/-- The braces of the code are those of the fragments. -/
theorem Lexes.bracesOf_eq {line : Line} {fs : List Fragment} (h : Lexes l line fs) :
    bracesOf l line = fs.filterMap Fragment.brace? := by
  unfold bracesOf
  induction h with
  | nil => rfl
  | comment text => rw [bracesFrom]; rfl
  | @string mark body rest fs hmark hbody _ ih =>
    rw [List.cons_append, bracesFrom_string hmark, hbody.bracesFrom_append, bracesFrom,
      if_neg (Language.opensString_ne hmark), if_pos rfl, ih]
    rfl
  | unclosed hmark htext =>
    rw [bracesFrom_string hmark, htext.bracesFrom_eq_nil]
    rfl
  | @literal text rest fs hhead hquote hlength _ ih =>
    have hpos := charLiteralLength_pos (text ++ rest)
    cases text with
    | nil => exact absurd hlength (Nat.ne_of_lt hpos)
    | cons c text =>
      obtain rfl : c = '\x27' := by simpa using hhead
      have hskip : charLiteralLength ('\x27' :: text ++ rest) - 1 = text.length := by
        rw [← hlength, List.length_cons, Nat.add_sub_cancel]
      have hread : bracesFrom l none 0 ('\x27' :: text ++ rest)
          = bracesFrom l none (charLiteralLength ('\x27' :: text ++ rest) - 1) (text ++ rest) := by
        rw [List.cons_append, bracesFrom]
        simp [hquote]
      rw [hread, hskip, bracesFrom_skip, ih]
      rfl
  | @code c rest fs hslash hmark htick _ ih =>
    obtain ⟨hquote, hback, -⟩ : c ≠ '"' ∧ c ≠ '\x60' ∧ _ := by
      simpa [Language.opensString, and_assoc] using hmark
    have hcomment : (decide (c = '/') && rest.head? == some '/') = false := by
      rw [Bool.eq_false_iff]
      simpa using hslash
    rw [bracesFrom, ih]
    simp only [hcomment, hquote, hback, htick, decide_false, Bool.or_self, Bool.false_eq_true,
      if_false]
    by_cases hopen : c = '\x7b'
    · subst hopen
      rfl
    by_cases hclose : c = '\x7d'
    · subst hclose
      rfl
    rw [if_neg hopen, if_neg hclose, List.filterMap_cons, Fragment.brace?_code hopen hclose]

/-! ### Every line falls into fragments -/

/-- Behind the mark that opens a string there is one that closes it, or the string goes on to the
end of the line. -/
theorem closed_or_unclosed (mark : Char) (text : List Char) :
    (∃ body rest, IsQuoted mark body ∧ text = body ++ mark :: rest) ∨ IsUnclosed mark text := by
  induction hn : text.length using Nat.strongRecOn generalizing text with
  | ind n ih =>
    subst hn
    cases text with
    | nil => exact .inr ⟨[], .nil, .inl rfl⟩
    | cons c rest =>
      by_cases hmark : c = mark
      · exact .inl ⟨[], rest, .nil, by rw [hmark]; rfl⟩
      by_cases hslash : c = '\\'
      · subst hslash
        cases rest with
        | nil => exact .inr ⟨[], .nil, .inr rfl⟩
        | cons d rest =>
          have hshort : rest.length < ('\\' :: d :: rest).length :=
            Nat.lt_succ_of_lt (Nat.lt_succ_self _)
          rcases ih rest.length hshort rest rfl with
            ⟨body, more, hbody, rfl⟩ | ⟨body, hbody, hrest⟩
          · exact .inl ⟨_, more, .escaped d hbody, rfl⟩
          · refine .inr ⟨_, .escaped d hbody, ?_⟩
            rcases hrest with rfl | rfl
            · exact .inl rfl
            · exact .inr rfl
      · rcases ih rest.length (by simp) rest rfl with
          ⟨body, more, hbody, rfl⟩ | ⟨body, hbody, hrest⟩
        · exact .inl ⟨_, more, .plain hmark hslash hbody, rfl⟩
        · refine .inr ⟨_, .plain hmark hslash hbody, ?_⟩
          rcases hrest with rfl | rfl
          · exact .inl rfl
          · exact .inr rfl

theorem charLiteralLength_le {text : List Char} (h : text ≠ []) :
    charLiteralLength text ≤ text.length := by
  unfold charLiteralLength
  split
  · next rest =>
    split
    · next i hi =>
      have hlt := (List.findIdx?_eq_some_iff_getElem.1 hi).1
      rw [List.length_take] at hlt
      simp only [List.length_cons]
      omega
    · simp
  · simp
  · exact List.length_pos_iff.2 h

/-- Every line falls into fragments. -/
theorem exists_lexes (l : Language) (line : Line) : ∃ fs, Lexes l line fs := by
  induction hn : line.length using Nat.strongRecOn generalizing line with
  | ind n ih =>
    subst hn
    cases line with
    | nil => exact ⟨_, .nil⟩
    | cons c rest =>
      by_cases hcomment : c = '/' ∧ rest.head? = some '/'
      · obtain ⟨rfl, hhead⟩ := hcomment
        obtain ⟨text, rfl⟩ := List.head?_eq_some_iff.1 hhead
        exact ⟨_, .comment text⟩
      cases hmark : l.opensString c with
      | true =>
        rcases closed_or_unclosed c rest with ⟨body, more, hbody, rfl⟩ | hunclosed
        · obtain ⟨fs, hfs⟩ := ih more.length
            (by rw [List.length_cons, List.length_append, List.length_cons]; omega) more rfl
          exact ⟨_, .string hmark hbody hfs⟩
        · exact ⟨_, .unclosed hmark hunclosed⟩
      | false =>
        by_cases htick : c = '\x27'
        · subst htick
          have hquote : l.singleQuoteOpensString = false := by
            simpa [Language.opensString] using hmark
          have hle := charLiteralLength_le (List.cons_ne_nil '\x27' rest)
          have hpos := charLiteralLength_pos ('\x27' :: rest)
          generalize hk : charLiteralLength ('\x27' :: rest) = k at hle hpos
          have hsplit := List.take_append_drop k ('\x27' :: rest)
          obtain ⟨fs, hfs⟩ := ih (('\x27' :: rest).drop k).length
            (by rw [List.length_drop]; omega) _ rfl
          have hliteral : Lexes l (('\x27' :: rest).take k ++ ('\x27' :: rest).drop k)
              (.literal (('\x27' :: rest).take k) :: fs) := by
            refine .literal (by rw [hsplit]; rfl) hquote ?_ hfs
            rw [hsplit, hk, List.length_take_of_le hle]
          exact ⟨_, hsplit ▸ hliteral⟩
        · obtain ⟨fs, hfs⟩ := ih rest.length (by simp) rest rfl
          exact ⟨_, .code hcomment hmark htick hfs⟩

/-! ### Balanced braces -/

/-- Braces, each with the number of its line, of which every opening one is closed and none is
closed before. -/
inductive IsBalanced : List (Nat × Brace) → Prop
  | nil : IsBalanced []
  | nest (i j : Nat) {inner behind : List (Nat × Brace)} : IsBalanced inner → IsBalanced behind →
    IsBalanced ((i, .opening) :: inner ++ (j, .closing) :: behind)

/-- The line of the brace that closes the last but `depth` of the open ones. -/
def closingLine (depth : Nat) : List (Nat × Brace) → Option Nat
  | [] => none
  | (_, .opening) :: rest => closingLine (depth + 1) rest
  | (i, .closing) :: rest =>
    match depth with
    | 0 => none
    | 1 => some i
    | depth + 2 => closingLine (depth + 1) rest

/-- What is balanced is passed over inside of an open brace. -/
theorem IsBalanced.closingLine_append {inner : List (Nat × Brace)} (h : IsBalanced inner)
    (depth : Nat) (rest : List (Nat × Brace)) :
    closingLine (depth + 1) (inner ++ rest) = closingLine (depth + 1) rest := by
  induction h generalizing depth rest with
  | nil => rfl
  | nest i j _ _ ihInner ihBehind =>
    rw [List.append_assoc, List.cons_append, closingLine, ihInner, List.cons_append, closingLine,
      ihBehind]

/-- An open brace that is closed has balanced braces in it. -/
theorem exists_balanced_of_closingLine {depth j : Nat} {bs : List (Nat × Brace)}
    (h : closingLine (depth + 1) bs = some j) :
    ∃ inner i rest, IsBalanced inner ∧ bs = inner ++ (i, .closing) :: rest
      ∧ (depth = 0 → i = j) ∧ (0 < depth → closingLine depth rest = some j) := by
  induction hn : bs.length using Nat.strongRecOn generalizing bs depth with
  | ind n ih =>
    subst hn
    match bs, h, ih with
    | (i, .closing) :: rest, h, _ =>
      refine ⟨[], i, rest, .nil, rfl, ?_, ?_⟩
      · rintro rfl
        exact Option.some.inj h
      · intro hpos
        obtain ⟨depth, rfl⟩ := Nat.exists_eq_succ_of_ne_zero (Nat.pos_iff_ne_zero.1 hpos)
        exact h
    | (i, .opening) :: rest, h, ih =>
      -- the brace that is opened here is closed first, and behind it the one that was open before
      have h : closingLine (depth + 1 + 1) rest = some j := h
      obtain ⟨inner, j', rest', hinner, rfl, -, hrest⟩ := ih rest.length (by simp) h rfl
      obtain ⟨behind, k, rest'', hbehind, rfl, hzero, hpos⟩ :=
        ih rest'.length (by rw [List.length_cons, List.length_append, List.length_cons]; omega)
          (hrest (Nat.succ_pos depth)) rfl
      exact ⟨_, k, rest'', .nest i j' hinner hbehind, by simp, hzero, hpos⟩

/-- Balanced braces in front of a closing one end there. -/
theorem IsBalanced.inner_eq {inner inner' rest rest' : List (Nat × Brace)} {i i' : Nat}
    (h : IsBalanced inner) (h' : IsBalanced inner')
    (heq : inner ++ (i, .closing) :: rest = inner' ++ (i', .closing) :: rest') :
    inner = inner' ∧ i = i' ∧ rest = rest' := by
  induction h generalizing inner' i rest i' rest' with
  | nil =>
    cases h' with
    | nil => simpa using heq
    | nest => simp at heq
  | nest j k hin hbe ihInner ihBehind =>
    cases h' with
    | nil => simp at heq
    | nest j' k' hin' hbe' =>
      simp only [List.cons_append, List.append_assoc, List.cons.injEq, Prod.mk.injEq, and_true]
        at heq
      obtain ⟨rfl, heq⟩ := heq
      obtain ⟨rfl, rfl, hrest⟩ := ihInner hin' heq
      obtain ⟨rfl, rfl, rfl⟩ := ihBehind hbe' hrest
      exact ⟨rfl, rfl, rfl⟩

/-- The beginning of braces that is balanced, not empty and the shortest such. -/
structure IsFirstBalanced (front bs : List (Nat × Brace)) : Prop where
  isPrefix : front <+: bs
  balanced : IsBalanced front
  ne_nil : front ≠ []
  shortest : ∀ other, other <+: bs → IsBalanced other → other ≠ [] →
    front.length ≤ other.length

theorem closingLine_eq_some_iff {bs : List (Nat × Brace)} {j : Nat} :
    closingLine 0 bs = some j ↔ ∃ i inner rest, IsBalanced inner
      ∧ bs = (i, .opening) :: inner ++ (j, .closing) :: rest := by
  constructor
  · intro h
    match bs, h with
    | (i, .opening) :: rest, h =>
      obtain ⟨inner, j', rest', hinner, rfl, hzero, -⟩ := exists_balanced_of_closingLine h
      exact ⟨i, inner, rest', hinner, by rw [hzero rfl]; rfl⟩
  · rintro ⟨i, inner, rest, hinner, rfl⟩
    rw [List.cons_append, closingLine, hinner.closingLine_append, closingLine]

/-- A balanced beginning that is not empty starts with the brace that opens first and goes at least
up to the one that closes it. -/
theorem exists_of_balanced_prefix {front bs : List (Nat × Brace)} (hfront : front <+: bs)
    (hbalanced : IsBalanced front) (hne : front ≠ []) :
    ∃ i inner j behind rest, IsBalanced inner
      ∧ front = (i, .opening) :: inner ++ (j, .closing) :: behind
      ∧ bs = (i, .opening) :: inner ++ (j, .closing) :: rest := by
  obtain ⟨more, rfl⟩ := hfront
  cases hbalanced with
  | nil => exact absurd rfl hne
  | @nest i j inner behind hinner hbehind =>
    exact ⟨i, inner, j, behind, behind ++ more, hinner, rfl, by simp⟩

/-- The first brace is closed if there is a balanced beginning. -/
theorem closingLine_isSome_iff {bs : List (Nat × Brace)} :
    (closingLine 0 bs).isSome ↔ ∃ front, front <+: bs ∧ front ≠ [] ∧ IsBalanced front := by
  rw [Option.isSome_iff_exists]
  constructor
  · rintro ⟨j, h⟩
    obtain ⟨i, inner, rest, hinner, rfl⟩ := closingLine_eq_some_iff.1 h
    exact ⟨_, ⟨rest, by simp⟩, by simp, .nest i j hinner .nil⟩
  · rintro ⟨front, hfront, hne, hbalanced⟩
    obtain ⟨i, inner, j, -, rest, hinner, -, hbs⟩ := exists_of_balanced_prefix hfront hbalanced hne
    exact ⟨j, closingLine_eq_some_iff.2 ⟨i, inner, rest, hinner, hbs⟩⟩

/-- What closes the first brace is the last one of the shortest balanced beginning. -/
theorem exists_isFirstBalanced {bs : List (Nat × Brace)} {j : Nat} (h : closingLine 0 bs = some j) :
    ∃ front, IsFirstBalanced (front ++ [(j, .closing)]) bs := by
  obtain ⟨i, inner, rest, hinner, rfl⟩ := closingLine_eq_some_iff.1 h
  refine ⟨(i, .opening) :: inner, ⟨rest, by simp⟩, .nest i j hinner .nil, by simp, ?_⟩
  intro other hother hbalanced hne
  obtain ⟨i', inner', j', behind, rest', hinner', rfl, heq⟩ :=
    exists_of_balanced_prefix hother hbalanced hne
  simp only [List.cons_append, List.cons.injEq] at heq
  obtain ⟨rfl, -, -⟩ := hinner.inner_eq hinner' heq.2
  simp

/-! ### Braces of lines -/

/-- The braces of the code in lines, which are numbered from `start` on. -/
def numberedBraces (l : Language) (start : Nat) (lines : List Line) : List (Nat × Brace) :=
  (lines.zipIdx start).flatMap fun (line, i) => (bracesOf l line).map (i, ·)

/-- The braces among the fragments of lines, which are numbered from `start` on. -/
def fragmentBraces (start : Nat) (fss : List (List Fragment)) : List (Nat × Brace) :=
  (fss.zipIdx start).flatMap fun (fs, i) => (fs.filterMap Fragment.brace?).map (i, ·)

/-- The first brace opens, and on a line up to `last`. -/
def OpensBy (last : Nat) (bs : List (Nat × Brace)) : Prop :=
  ∃ i, bs.head? = some (i, .opening) ∧ i ≤ last

theorem numberedBraces_cons (start : Nat) (line : Line) (rest : List Line) :
    numberedBraces l start (line :: rest)
      = (bracesOf l line).map (start, ·) ++ numberedBraces l (start + 1) rest := by
  rw [numberedBraces, List.zipIdx_cons, List.flatMap_cons]
  rfl

theorem fragmentBraces_eq {lines : List Line} {fss : List (List Fragment)}
    (h : List.Forall₂ (Lexes l) lines fss) (start : Nat) :
    fragmentBraces start fss = numberedBraces l start lines := by
  induction h generalizing start with
  | nil => rfl
  | cons hfs _ ih =>
    rw [fragmentBraces, List.zipIdx_cons, List.flatMap_cons, ← fragmentBraces, ih,
      numberedBraces_cons, hfs.bracesOf_eq]

theorem le_of_mem_numberedBraces {start : Nat} {lines : List Line} {b : Nat × Brace}
    (h : b ∈ numberedBraces l start lines) : start ≤ b.1 := by
  obtain ⟨⟨line, i⟩, hline, hb⟩ := List.mem_flatMap.1 h
  obtain ⟨_, -, rfl⟩ := List.mem_map.1 hb
  exact List.le_snd_of_mem_zipIdx hline

/-- Reading one line: what is open behind it, or that the search is over. -/
theorem closingLine_line (depth i : Nat) (bs : List Brace) (more : List (Nat × Brace)) :
    closingLine depth (bs.map (i, ·) ++ more)
      = match balance depth bs with
        | .pending depth => closingLine depth more
        | .closed => some i
        | .stray => none := by
  fun_induction balance depth bs with
  | case1 depth => rfl
  | case2 _ _ ih => exact ih
  | case3 => rfl
  | case4 => rfl
  | case5 _ _ ih => exact ih

/-- What is open stays open until it is closed. -/
theorem pos_of_balance {depth depth' : Nat} {bs : List Brace} (hpos : 0 < depth)
    (h : balance depth bs = .pending depth') : 0 < depth' := by
  fun_induction balance depth bs with
  | case1 depth => exact (Balance.pending.inj h) ▸ hpos
  | case2 _ _ ih => exact ih (Nat.succ_pos _) h
  | case3 => cases h
  | case4 => cases h
  | case5 _ _ ih => exact ih (Nat.succ_pos _) h

variable {lookahead passed n : Nat} {lines : List Line}

/-- With a brace open, the lines are read up to the one that closes it. -/
theorem bracedLength_open_iff (start : Nat) {depth : Nat} (hpos : 0 < depth) :
    bracedLength l lookahead passed depth lines = some n
      ↔ ∃ j, closingLine depth (numberedBraces l (start + passed) lines) = some j
        ∧ start + n = j + 1 := by
  induction lines generalizing passed depth with
  | nil => simp [bracedLength, numberedBraces, closingLine]
  | cons line rest ih =>
    have hopen : ¬(depth = 0 && passed > lookahead) = true := by simp [Nat.ne_of_gt hpos]
    rw [bracedLength, if_neg hopen, numberedBraces_cons, closingLine_line]
    cases hbalance : balance depth (bracesOf l line) with
    | pending depth' => exact ih (pos_of_balance hpos hbalance)
    | closed =>
      simp only [Option.some.injEq, exists_eq_left']
      omega
    | stray => simp

/-- The lines are read up to the one that closes the first brace, if that one opens in time. -/
theorem bracedLength_eq_some_iff (start : Nat) :
    bracedLength l lookahead passed 0 lines = some n
      ↔ OpensBy (start + lookahead) (numberedBraces l (start + passed) lines)
        ∧ ∃ j, closingLine 0 (numberedBraces l (start + passed) lines) = some j
          ∧ start + n = j + 1 := by
  induction lines generalizing passed with
  | nil => simp [bracedLength, numberedBraces, closingLine]
  | cons line rest ih =>
    rw [bracedLength]
    by_cases hlate : passed > lookahead
    · rw [if_pos (by simp [hlate])]
      refine iff_of_false (by simp) ?_
      rintro ⟨⟨i, hhead, hi⟩, -⟩
      have hle := le_of_mem_numberedBraces (List.mem_of_head? hhead)
      dsimp only at hle
      omega
    rw [if_neg (by simp [hlate]), numberedBraces_cons, closingLine_line]
    cases hbraces : bracesOf l line with
    | nil => exact ih
    | cons first more =>
      cases first with
      | closing => simp [balance, OpensBy]
      | opening =>
        have hopens : OpensBy (start + lookahead) ((Brace.opening :: more).map (start + passed, ·)
            ++ numberedBraces l (start + passed + 1) rest) := ⟨start + passed, rfl, by omega⟩
        rw [and_iff_right hopens]
        cases hbalance : balance 0 (.opening :: more) with
        | pending depth' => exact bracedLength_open_iff start (pos_of_balance Nat.one_pos hbalance)
        | closed =>
          simp only [Option.some.injEq, exists_eq_left']
          omega
        | stray => simp

/-! ### The ends of units -/

/-- Where the braces that start on a line or shortly behind end, counted from the first line. -/
def braceEnd? (o : SegmentOptions) (l : Language) (lines : List Line) (start : Nat) : Option Nat :=
  (bracedLength l o.braceLookahead 0 0 (lines.drop start)).map (start + ·)

/-- Where the unit that starts on a line ends, counted from the first line. -/
def unitEnd (o : SegmentOptions) (l : Language) (lines : List Line) (start : Nat) : Nat :=
  start + unitLength o l (lines.getD start []) (lines.drop (start + 1))

/-- A part of lines ends in front of the first visible line behind its start that is indented no
deeper, or with the lines. -/
structure EndsByIndentation (lines : List Line) (start stop : Nat) : Prop where
  start_lt : start < stop
  le_length : stop ≤ lines.length
  inside : ∀ k line, start < k → k < stop → lines[k]? = some line →
    allBlank line = true ∨ indentWidth (lines.getD start []) < indentWidth line
  behind : ∀ line, lines[stop]? = some line →
    allBlank line = false ∧ indentWidth line ≤ indentWidth (lines.getD start [])

theorem indentedLength_cons (depth : Nat) (line : Line) (rest : List Line) :
    indentedLength depth (line :: rest)
      = if allBlank line = true ∨ depth < indentWidth line then indentedLength depth rest + 1
        else 0 := by
  rw [indentedLength, List.takeWhile_cons]
  simp only [Bool.or_eq_true, decide_eq_true_iff, gt_iff_lt]
  split <;> rfl

/-- The lines that are passed over are blank or deeper. -/
theorem deeper_of_lt_indentedLength {depth k : Nat} {lines : List Line} {line : Line}
    (hk : k < indentedLength depth lines) (hline : lines[k]? = some line) :
    allBlank line = true ∨ depth < indentWidth line := by
  induction lines generalizing k with
  | nil => cases hline
  | cons first rest ih =>
    rw [indentedLength_cons] at hk
    split at hk
    · next hfirst =>
      cases k with
      | zero => exact Option.some.inj hline ▸ hfirst
      | succ k => exact ih (Nat.lt_of_succ_lt_succ hk) hline
    · exact absurd hk (Nat.not_lt_zero k)

/-- The line behind them is visible and no deeper. -/
theorem not_deeper_behind_indentedLength {depth : Nat} {lines : List Line} {line : Line}
    (hline : lines[indentedLength depth lines]? = some line) :
    allBlank line = false ∧ indentWidth line ≤ depth := by
  induction lines with
  | nil => cases hline
  | cons first rest ih =>
    rw [indentedLength_cons] at hline
    split at hline
    · exact ih hline
    · next hfirst =>
      obtain rfl : first = line := by simpa using hline
      simpa using hfirst

theorem endsByIndentation {lines : List Line} {start : Nat} (h : start < lines.length) :
    EndsByIndentation lines start (start
      + (1 + indentedLength (indentWidth (lines.getD start [])) (lines.drop (start + 1)))) := by
  have hle := indentedLength_le (indentWidth (lines.getD start [])) (lines.drop (start + 1))
  rw [List.length_drop] at hle
  refine ⟨by omega, by omega, fun k line hk hstop hline => ?_, fun line hline => ?_⟩
  · obtain ⟨k, rfl⟩ := Nat.exists_eq_add_of_le hk
    rw [Nat.succ_eq_add_one, ← List.getElem?_drop] at hline
    exact deeper_of_lt_indentedLength (by omega) hline
  · rw [← Nat.add_assoc, ← List.getElem?_drop] at hline
    exact not_deeper_behind_indentedLength hline

theorem exists_forall₂_lexes (l : Language) (lines : List Line) :
    ∃ fss, List.Forall₂ (Lexes l) lines fss := by
  induction lines with
  | nil => exact ⟨[], .nil⟩
  | cons line rest ih =>
    obtain ⟨fs, hfs⟩ := exists_lexes l line
    obtain ⟨fss, hfss⟩ := ih
    exact ⟨fs :: fss, .cons hfs hfss⟩

/-- Braces end behind the line of the one that closes the first, if that one opens in time. -/
theorem braceEnd?_eq_some_iff {o : SegmentOptions} {lines : List Line} {start stop : Nat} :
    braceEnd? o l lines start = some stop
      ↔ OpensBy (start + o.braceLookahead) (numberedBraces l start (lines.drop start))
        ∧ ∃ i, closingLine 0 (numberedBraces l start (lines.drop start)) = some i
          ∧ stop = i + 1 := by
  rw [braceEnd?, Option.map_eq_some_iff]
  simp only [bracedLength_eq_some_iff start, Nat.add_zero]
  constructor
  · rintro ⟨n, ⟨hopens, i, hi, hn⟩, rfl⟩
    exact ⟨hopens, i, hi, hn⟩
  · rintro ⟨hopens, i, hi, rfl⟩
    obtain ⟨_, _, _, -, hbraces⟩ := closingLine_eq_some_iff.1 hi
    have hmem : (i, Brace.closing) ∈ numberedBraces l start (lines.drop start) := by simp [hbraces]
    have hle : start ≤ i := le_of_mem_numberedBraces hmem
    exact ⟨i + 1 - start, ⟨hopens, i, hi, by omega⟩, by omega⟩

/-- The end of a unit is that of its braces, or that of its indentation. -/
theorem unitEnd_eq {o : SegmentOptions} (hbraces : l.usesBraces = true)
    (ho : o.braceMatching = true) {lines : List Line} {start : Nat} (h : start < lines.length) :
    unitEnd o l lines start = (braceEnd? o l lines start).getD (start
      + (1 + indentedLength (indentWidth (lines.getD start [])) (lines.drop (start + 1)))) := by
  have hdrop : lines.drop start = lines.getD start [] :: lines.drop (start + 1) := by
    rw [List.getD_eq_getElem _ _ h, List.drop_eq_getElem_cons h]
  rw [unitEnd, unitLength, braceEnd?, hdrop, ho, hbraces]
  cases bracedLength l o.braceLookahead 0 0 (lines.getD start [] :: lines.drop (start + 1)) <;> rfl

/-- The scan for the end of a unit finds what its specification says. Every line falls into
fragments. Braces end the unit if the first of them opens on the start line or within the look-ahead
and some beginning of them is balanced; the unit ends behind the line of the last brace of the
shortest one. In every other case the unit ends by its indentation. -/
theorem unit_end_matches_braces (o : SegmentOptions) (l : Language)
    (hbraces : l.usesBraces = true) (ho : o.braceMatching = true) (lines : List Line) (start : Nat)
    (hstart : start < lines.length) :
    (∃ fss, List.Forall₂ (Lexes l) (lines.drop start) fss)
      ∧ ∀ fss, List.Forall₂ (Lexes l) (lines.drop start) fss →
        ((braceEnd? o l lines start).isSome
            ↔ OpensBy (start + o.braceLookahead) (fragmentBraces start fss)
              ∧ ∃ front, front <+: fragmentBraces start fss ∧ front ≠ [] ∧ IsBalanced front)
        ∧ (∀ stop, braceEnd? o l lines start = some stop → unitEnd o l lines start = stop
          ∧ ∃ front i, IsFirstBalanced (front ++ [(i, .closing)]) (fragmentBraces start fss)
            ∧ stop = i + 1)
        ∧ (braceEnd? o l lines start = none →
          EndsByIndentation lines start (unitEnd o l lines start)) := by
  refine ⟨exists_forall₂_lexes l _, fun fss hfss => ?_⟩
  rw [fragmentBraces_eq hfss]
  refine ⟨?_, fun stop hstop => ⟨by rw [unitEnd_eq hbraces ho hstart, hstop]; rfl, ?_⟩,
    fun hnone => ?_⟩
  · rw [← closingLine_isSome_iff, Option.isSome_iff_exists, Option.isSome_iff_exists]
    simp only [braceEnd?_eq_some_iff]
    exact ⟨fun ⟨_, hopens, i, hi, _⟩ => ⟨hopens, i, hi⟩,
      fun ⟨hopens, i, hi⟩ => ⟨_, hopens, i, hi, rfl⟩⟩
  · obtain ⟨-, i, hi, rfl⟩ := braceEnd?_eq_some_iff.1 hstop
    obtain ⟨front, hfront⟩ := exists_isFirstBalanced hi
    exact ⟨front, i, hfront, rfl⟩
  · rw [unitEnd_eq hbraces ho hstart, hnone]
    exact endsByIndentation hstart

/-- A function with closing braces in a string, in a character literal and in a comment, and behind
it one without a body. -/
def quotedLines : List Line :=
  ["fn closes<'a>(c: char, s: &'a str) -> bool \x7b".toList,
    "    c == '\x7d' || s == \"\\\"\x7d\" // \x7d".toList, "\x7d".toList,
    "fn opens(c: char) -> bool".toList]

/-- The function ends behind the brace that is none of these; the other one by its indentation. -/
theorem unit_end_matches_braces_quoted :
    unitEnd {} .rust quotedLines 0 = 3
      ∧ (∃ fss front, List.Forall₂ (Lexes .rust) quotedLines fss
        ∧ IsFirstBalanced (front ++ [(2, .closing)]) (fragmentBraces 0 fss))
      ∧ EndsByIndentation quotedLines 3 (unitEnd {} .rust quotedLines 3) := by
  obtain ⟨⟨fss, hfss⟩, hbraced⟩ :=
    unit_end_matches_braces {} .rust rfl rfl quotedLines 0 (by decide)
  obtain ⟨hend, front, i, hfirst, hi⟩ := (hbraced fss hfss).2.1 3 (by decide +kernel)
  obtain ⟨⟨fss', hfss'⟩, hindented⟩ :=
    unit_end_matches_braces {} .rust rfl rfl quotedLines 3 (by decide)
  obtain rfl : 2 = i := Nat.succ.inj hi
  exact ⟨hend, ⟨fss, front, hfss, hfirst⟩, (hindented fss' hfss').2.2 (by decide +kernel)⟩

end Marginalia
