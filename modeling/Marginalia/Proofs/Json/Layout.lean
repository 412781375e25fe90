import Marginalia.Proofs.Json.RoundTrip
import Marginalia.Proofs.Text.Lines

/-!
The layout of indented JSON. Every line of it opens with spaces and a token, so none of them can be
taken for a line of another kind, and its lines with line feeds between them are the whole text.
-/

namespace Marginalia.Json

open Text

/-- A character that opens a literal, an array or an object, or closes one of the latter two. -/
def opensToken (c : Char) : Bool := ['"', '[', ']', '\x7b', '\x7d'].contains c

/-- A text that starts with spaces and a token. -/
def BeginsToken (text : List Char) : Prop :=
  ∃ n c rest, text = List.replicate n ' ' ++ c :: rest ∧ opensToken c

/-- A token follows each line feed of the text, with spaces in between at most. -/
def TokenLines : List Char → Prop
  | [] => True
  | c :: rest => (c = '\n' → BeginsToken rest) ∧ TokenLines rest

/-- A text of JSON lines: a token opens each of them, and no carriage return is in them. -/
structure IsLaidOut (text : List Char) : Prop where
  begins : BeginsToken text
  lines : TokenLines text
  noReturn : '\r' ∉ text

theorem BeginsToken.append {text : List Char} (h : BeginsToken text) (more : List Char) :
    BeginsToken (text ++ more) := by
  obtain ⟨n, c, rest, rfl, hc⟩ := h
  exact ⟨n, c, rest ++ more, by simp, hc⟩

theorem beginsToken_cons {c : Char} (h : opensToken c) (rest : List Char) :
    BeginsToken (c :: rest) := ⟨0, c, rest, rfl, h⟩

theorem TokenLines.append {text more : List Char} (h : TokenLines text) (hm : TokenLines more) :
    TokenLines (text ++ more) := by
  induction text with
  | nil => exact hm
  | cons c rest ih => exact ⟨fun hc => (h.1 hc).append more, ih h.2⟩

theorem tokenLines_of_not_mem {text : List Char} (h : '\n' ∉ text) : TokenLines text := by
  induction text with
  | nil => trivial
  | cons c rest ih =>
    rw [List.mem_cons, not_or] at h
    exact ⟨fun hc => absurd hc.symm h.1, ih h.2⟩

/-- What is laid out may stand on a line of its own. -/
theorem IsLaidOut.tokenLines_indentation {text : List Char} (h : IsLaidOut text) (depth : Nat) :
    TokenLines (indentation depth ++ text) := by
  have hspaces : '\n' ∉ List.replicate (2 * depth) ' ' := fun hm =>
    absurd (List.eq_of_mem_replicate hm) (by decide)
  obtain ⟨n, c, rest, htext, hc⟩ := h.begins
  refine ⟨fun _ => ⟨2 * depth + n, c, rest, ?_, hc⟩, (tokenLines_of_not_mem hspaces).append h.lines⟩
  change List.replicate (2 * depth) ' ' ++ text = _
  rw [htext, ← List.append_assoc, List.replicate_append_replicate]

theorem return_not_mem_indentation (depth : Nat) : '\r' ∉ indentation depth := by
  intro hm
  rcases List.mem_cons.1 hm with h | h
  · exact absurd h (by decide)
  · exact absurd (List.eq_of_mem_replicate h) (by decide)

/-! ### Values -/

theorem hexDigit_ne : ∀ n < 16, hexDigit n ≠ '\n' ∧ hexDigit n ≠ '\r' := by decide

theorem not_mem_escapeChar (c : Char) : '\n' ∉ escapeChar c ∧ '\r' ∉ escapeChar c := by
  unfold escapeChar
  split_ifs with h1 h2 h3 h4 h5 h6 h7 h8
  iterate 7 decide
  · have hhi := hexDigit_ne (c.toNat / 16) (by omega)
    have hlo := hexDigit_ne (c.toNat % 16) (by omega)
    simp [hhi.1.symm, hhi.2.symm, hlo.1.symm, hlo.2.symm]
  · simp [Ne.symm h3, Ne.symm h4]

theorem isLaidOut_literal (s : String) : IsLaidOut (literal s) := by
  have hesc : ∀ c ∈ s.toList, '\n' ∉ escapeChar c ∧ '\r' ∉ escapeChar c :=
    fun c _ => not_mem_escapeChar c
  refine ⟨beginsToken_cons (by decide) _, tokenLines_of_not_mem ?_, ?_⟩
  · simpa [literal] using fun c hc => (hesc c hc).1
  · simpa [literal] using fun c hc => (hesc c hc).2

theorem isLaidOut_string (depth : Nat) (s : String) : IsLaidOut (pretty depth (string s)) := by
  rw [pretty, compact]
  exact isLaidOut_literal s

/-- Brackets around lines that are laid out. -/
theorem isLaidOut_bracketed {left right : Char} (hl : opensToken left) (hr : opensToken right)
    {text : List Char} (ht : TokenLines text) (hn : '\r' ∉ text) (depth : Nat) :
    IsLaidOut ([left] ++ text ++ indentation depth ++ [right]) := by
  have hne : ∀ c, opensToken c = true → c ≠ '\n' ∧ c ≠ '\r' := by
    intro c hc
    constructor <;> rintro rfl <;> exact absurd hc (by decide)
  have hright : IsLaidOut [right] :=
    ⟨beginsToken_cons hr _, tokenLines_of_not_mem (by simpa using (hne right hr).1.symm),
      by simpa using (hne right hr).2.symm⟩
  rw [List.append_assoc, List.append_assoc, List.singleton_append]
  refine ⟨beginsToken_cons hl _, ⟨fun hc => absurd hc (hne left hl).1, ?_⟩, ?_⟩
  · exact ht.append (hright.tokenLines_indentation depth)
  · simp [(hne left hl).2.symm, hn, return_not_mem_indentation, (hne right hr).2.symm]

theorem isLaidOut_array {depth : Nat} {vs : List Json}
    (h : ∀ v ∈ vs, IsLaidOut (pretty (depth + 1) v)) : IsLaidOut (pretty depth (array vs)) := by
  have hitems : TokenLines (spacedItems (indentation (depth + 1)) (pretty (depth + 1)) vs)
      ∧ '\r' ∉ spacedItems (indentation (depth + 1)) (pretty (depth + 1)) vs := by
    induction vs with
    | nil => simp [spacedItems, TokenLines]
    | cons v vs ih =>
      have hv := h v (by simp)
      have ih := ih fun w hw => h w (List.mem_cons_of_mem _ hw)
      have hline := hv.tokenLines_indentation (depth + 1)
      cases vs with
      | nil =>
        rw [spacedItems]
        exact ⟨hline, by simp [hv.noReturn, return_not_mem_indentation]⟩
      | cons w ws =>
        rw [spacedItems_cons_cons]
        refine ⟨hline.append ⟨fun hc => absurd hc (by decide), ih.1⟩, ?_⟩
        simp [hv.noReturn, return_not_mem_indentation, ih.2]
  cases vs with
  | nil => exact ⟨beginsToken_cons (by decide) _, by simp [pretty, TokenLines], by simp [pretty]⟩
  | cons v vs =>
    rw [pretty, prettyItems_eq]
    · exact isLaidOut_bracketed (by decide) (by decide) hitems.1 hitems.2 depth
    · simp

theorem isLaidOut_spacedField {depth : Nat} {f : String × Json}
    (h : IsLaidOut (pretty depth f.2)) :
    TokenLines (spacedField (indentation depth) [' '] (pretty depth) f)
      ∧ '\r' ∉ spacedField (indentation depth) [' '] (pretty depth) f := by
  have hkey := isLaidOut_literal f.1
  rw [spacedField]
  refine ⟨((hkey.tokenLines_indentation depth).append
    (tokenLines_of_not_mem (by decide))).append h.lines, ?_⟩
  simp [hkey.noReturn, return_not_mem_indentation, h.noReturn]

theorem pretty_ofFields_cons (depth : Nat) (f : String × Json) (fs : List (String × Json)) :
    pretty depth (ofFields (f :: fs)) = ['\x7b']
      ++ spacedFields (indentation (depth + 1)) [' '] (pretty (depth + 1)) (f :: fs)
      ++ indentation depth ++ ['\x7d'] := by
  refine (prettySpacing.text_fields depth f fs).trans ?_
  simp [prettySpacing]

theorem isLaidOut_ofFields {depth : Nat} {fs : List (String × Json)}
    (h : ∀ f ∈ fs, IsLaidOut (pretty (depth + 1) f.2)) :
    IsLaidOut (pretty depth (ofFields fs)) := by
  have hfields : TokenLines (spacedFields (indentation (depth + 1)) [' '] (pretty (depth + 1)) fs)
      ∧ '\r' ∉ spacedFields (indentation (depth + 1)) [' '] (pretty (depth + 1)) fs := by
    induction fs with
    | nil => simp [spacedFields, TokenLines]
    | cons f fs ih =>
      have hf := isLaidOut_spacedField (h f (by simp))
      have ih := ih fun g hg => h g (List.mem_cons_of_mem _ hg)
      cases fs with
      | nil => rwa [spacedFields]
      | cons g gs =>
        rw [spacedFields_cons_cons]
        refine ⟨hf.1.append ⟨fun hc => absurd hc (by decide), ih.1⟩, ?_⟩
        simp [hf.2, ih.2]
  cases fs with
  | nil =>
    exact ⟨beginsToken_cons (by decide) _, by simp [ofFields, pretty, TokenLines],
      by simp [ofFields, pretty]⟩
  | cons f fs =>
    rw [pretty_ofFields_cons]
    exact isLaidOut_bracketed (by decide) (by decide) hfields.1 hfields.2 depth

theorem isLaidOut_annotationJson (a : Annotation) : IsLaidOut (pretty 0 (toJson a)) := by
  refine isLaidOut_ofFields fun f hf => ?_
  simp only [List.mem_cons, List.not_mem_nil, or_false] at hf
  rcases hf with rfl | rfl | rfl | rfl | rfl | rfl | rfl
  case inr.inr.inr.inr.inl =>
    refine isLaidOut_array fun v hv => ?_
    obtain ⟨s, -, rfl⟩ := List.mem_map.1 hv
    exact isLaidOut_string _ s
  all_goals exact isLaidOut_string _ _

theorem getLast?_pretty_annotationJson (a : Annotation) :
    (pretty 0 (toJson a)).getLast? ≠ some '\n' := by
  change (pretty 0 (ofFields (_ :: _))).getLast? ≠ _
  rw [pretty_ofFields_cons, List.getLast?_concat]
  decide

/-! ### Lines -/

theorem BeginsToken.head_splitLines {text : List Char} (h : BeginsToken text) :
    ∃ line lines, splitLines text = line :: lines ∧ BeginsToken line := by
  obtain ⟨n, c, rest, rfl, hc⟩ := h
  have hne : c ≠ '\n' := by rintro rfl; exact absurd hc (by decide)
  induction n with
  | zero =>
    cases hrest : splitLines rest with
    | nil =>
      have hnil : rest = [] := by rw [← flatten_splitLines rest, hrest]; rfl
      subst hnil
      refine ⟨[c], [], ?_, beginsToken_cons hc _⟩
      exact splitLines_unterminated (by simpa using hne.symm) (by simp)
    | cons line lines => exact ⟨c :: line, lines, splitLines_of_ne hne hrest, beginsToken_cons hc _⟩
  | succ n ih =>
    obtain ⟨line, lines, hsplit, m, d, tail, rfl, hd⟩ := ih
    exact ⟨_, lines, splitLines_of_ne (by decide) hsplit, m + 1, d, tail, rfl, hd⟩

theorem TokenLines.tail_splitLines {text : List Char} (h : TokenLines text) :
    ∀ line ∈ (splitLines text).tail, BeginsToken line := by
  induction text with
  | nil => simp [splitLines]
  | cons c rest ih =>
    by_cases hc : c = '\n'
    · subst hc
      obtain ⟨line, lines, hsplit, hline⟩ := (h.1 rfl).head_splitLines
      have ih := ih h.2
      rw [hsplit] at ih
      rw [splitLines_newline, List.tail_cons, hsplit]
      intro x hx
      rcases List.mem_cons.1 hx with rfl | hx
      · exact hline
      · exact ih x hx
    · cases hrest : splitLines rest with
      | nil => simp [splitLines, prependChar, hc, show rest.foldr prependChar [] = [] from hrest]
      | cons line lines =>
        have ih := ih h.2
        rw [hrest] at ih
        rwa [splitLines_of_ne hc hrest]

theorem BeginsToken.content {line : Line} (h : BeginsToken line) : BeginsToken (content line) := by
  obtain ⟨n, c, rest, rfl, hc⟩ := h
  have hr : c ≠ '\r' := by rintro rfl; exact absurd hc (by decide)
  have hn : c ≠ '\n' := by rintro rfl; exact absurd hc (by decide)
  refine ⟨n, c, Text.content rest, ?_, hc⟩
  induction n with
  | zero => exact content_cons hr hn rest
  | succ n ih =>
    rw [List.replicate_succ, List.cons_append, content_cons (by decide) (by decide), ih]
    rfl

/-- What a line of a laid out text looks like. -/
theorem IsLaidOut.of_mem_contents {text : List Char} (h : IsLaidOut text) {line : Line}
    (hline : line ∈ contents text) : BeginsToken line ∧ '\r' ∉ line := by
  obtain ⟨full, hfull, rfl⟩ := List.mem_map.1 hline
  constructor
  · obtain ⟨first, lines, hsplit, hfirst⟩ := h.begins.head_splitLines
    have htail := h.lines.tail_splitLines
    rw [hsplit] at hfull htail
    rcases List.mem_cons.1 hfull with rfl | hfull
    · exact hfirst.content
    · exact (htail full hfull).content
  · intro hr
    apply h.noReturn
    rw [← flatten_splitLines text]
    obtain ⟨tail, hcontent, -⟩ := content_append full
    exact List.mem_flatten.2 ⟨full, hfull, hcontent ▸ List.mem_append_left _ hr⟩

end Marginalia.Json
