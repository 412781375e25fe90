import Marginalia.Proofs.Synchronize.Accounting

/-!
Line endings. A text with a carriage return in front of every line feed has the lines of the text
without them but for what ends the lines, and nothing that is read off a line looks at that. So it
has the same units and loses the same blocks, and it is given the same blocks in the same places,
with the line endings of the lines around them.
-/

namespace Marginalia

open Text

/-! ### Carriage returns in a text -/

namespace Text

/-- The text with a carriage return in front of every line feed. -/
def withReturns (text : List Char) : List Char :=
  text.flatMap fun c => if c = '\n' then ['\r', '\n'] else [c]

/-- The string with a carriage return in front of every line feed. -/
def crlf (s : String) : String := String.ofList (withReturns s.toList)

theorem withReturns_append (front back : List Char) :
    withReturns (front ++ back) = withReturns front ++ withReturns back :=
  List.flatMap_append

theorem withReturns_of_not_mem {text : List Char} (h : '\n' ∉ text) : withReturns text = text := by
  induction text with
  | nil => rfl
  | cons c rest ih =>
    rw [List.mem_cons, not_or] at h
    rw [withReturns, List.flatMap_cons, if_neg (Ne.symm h.1), ← withReturns, ih h.2]
    rfl

theorem withReturns_terminated {body : List Char} (h : '\n' ∉ body) :
    withReturns (body ++ ['\n']) = body ++ ['\r', '\n'] := by
  rw [withReturns_append, withReturns_of_not_mem h]
  rfl

theorem withReturns_flatten (lines : List Line) :
    withReturns lines.flatten = (lines.map withReturns).flatten := by
  induction lines with
  | nil => rfl
  | cons line rest ih => rw [List.flatten_cons, withReturns_append, ih, List.map_cons,
      List.flatten_cons]

theorem head?_withReturns (text : List Char) : (withReturns text).head? ≠ some '\n' := by
  cases text with
  | nil => simp [withReturns]
  | cons c rest => by_cases hc : c = '\n' <;> simp [withReturns, hc]

/-- A text can be told from what it is with carriage returns. -/
theorem withReturns_injective : Function.Injective withReturns := by
  intro text text' h
  induction text generalizing text' with
  | nil =>
    cases text' with
    | nil => rfl
    | cons d rest => by_cases hd : d = '\n' <;> simp [withReturns, hd] at h
  | cons c rest ih =>
    cases text' with
    | nil => by_cases hc : c = '\n' <;> simp [withReturns, hc] at h
    | cons d rest' =>
      rw [withReturns, withReturns, List.flatMap_cons, List.flatMap_cons, ← withReturns,
        ← withReturns] at h
      by_cases hc : c = '\n' <;> by_cases hd : d = '\n'
      · subst hc hd
        rw [ih (by simpa using h)]
      · -- a carriage return of the other text has no line feed behind it that is its own
        obtain ⟨-, hrest⟩ := List.cons.inj (by simpa [hc, hd] using h)
        exact absurd (hrest ▸ rfl) (head?_withReturns rest')
      · obtain ⟨-, hrest⟩ := List.cons.inj (by simpa [hc, hd] using h)
        exact absurd (hrest ▸ rfl) (head?_withReturns rest)
      · obtain ⟨rfl, hrest⟩ := List.cons.inj (by simpa [hc, hd] using h)
        rw [ih hrest]

theorem crlf_inj {s s' : String} : crlf s = crlf s' ↔ s = s' := by
  refine ⟨fun h => ?_, congrArg crlf⟩
  rw [crlf, crlf, String.ofList_inj] at h
  exact String.toList_inj.1 (withReturns_injective h)

theorem IsTerminated.withReturns {line : Line} (h : IsTerminated line) :
    IsTerminated (withReturns line) := by
  obtain ⟨body, rfl, hbody⟩ := h
  rw [withReturns_terminated hbody]
  exact ⟨body ++ ['\r'], by simp, by simpa using hbody⟩

/-- Carriage returns leave the line feeds where they are. -/
theorem splitLines_withReturns (text : List Char) :
    splitLines (withReturns text) = (splitLines text).map withReturns := by
  have hlines := areLines_splitLines text
  have hmap : AreLines ((splitLines text).map withReturns) := by
    refine ⟨fun line hline => ?_, hlines.terminated.map _ fun _ _ h => h.withReturns⟩
    obtain ⟨x, hx, rfl⟩ := List.mem_map.1 hline
    rcases hlines.isLine x hx with hx | ⟨hne, hx⟩
    · exact hx.withReturns.isLine
    · rw [withReturns_of_not_mem hx]
      exact .inr ⟨hne, hx⟩
  rw [← splitLines_flatten hmap, ← withReturns_flatten, flatten_splitLines]

theorem occursIn_of_forall_not_mem {word text : List Char} (hne : word ≠ [])
    (h : ∀ c ∈ text, c ∉ word) : occursIn word text = false := by
  induction text with
  | nil => exact List.isEmpty_eq_false_iff.2 hne
  | cons c rest ih =>
    obtain ⟨d, word, rfl⟩ := List.exists_cons_of_ne_nil hne
    have hc : d ≠ c := fun hd => h c (by simp) (hd ▸ List.mem_cons_self)
    rw [occursIn, ih fun e he => h e (List.mem_cons_of_mem _ he)]
    simp [List.isPrefixOf, hc]

/-- A word does not reach into characters that it does not have. -/
theorem occursIn_append {word tail : List Char} (hne : word ≠ []) (htail : ∀ c ∈ tail, c ∉ word)
    (text : List Char) : occursIn word (text ++ tail) = occursIn word text := by
  have hprefix (front : List Char) :
      word.isPrefixOf (front ++ tail) = word.isPrefixOf front := by
    rw [Bool.eq_iff_iff, List.isPrefixOf_iff_prefix, List.isPrefixOf_iff_prefix]
    refine ⟨fun h => ?_, fun h => h.trans (List.prefix_append _ _)⟩
    rcases List.prefix_or_prefix_of_prefix h (List.prefix_append front tail) with h' | ⟨more, rfl⟩
    · exact h'
    · cases more with
      | nil => simp
      | cons c more =>
        have hc : c ∈ tail := ((List.prefix_append_right_inj front).1 h).subset (by simp)
        exact absurd (by simp) (htail c hc)
  induction text with
  | nil =>
    rw [List.nil_append, occursIn_of_forall_not_mem hne htail, occursIn,
      List.isEmpty_eq_false_iff.2 hne]
  | cons c rest ih => rw [List.cons_append, occursIn, occursIn, ← List.cons_append, hprefix, ih]

end Text

/-! ### What is read off a line -/

section Line

variable {l : Language} {body newline : List Char} (hn : IsNewline newline)

include hn

theorem all_isBlank_newline : newline.all isBlank = true := by
  rcases hn with rfl | rfl <;> rfl

theorem allBlank_append_newline : allBlank (body ++ newline) = allBlank body := by
  rw [allBlank, allBlank, List.all_append, all_isBlank_newline hn, Bool.and_true]

theorem withoutTerminator_append_newline :
    withoutTerminator (body ++ newline) = withoutTerminator body :=
  dropTrailing_append_of_all (isBlank_of_isNewline hn) body

theorem commentBody?_append_newline : commentBody? l (body ++ newline) = commentBody? l body := by
  have hvisible : withoutTerminator (trimStart (body ++ newline))
      = withoutTerminator (trimStart body) := by
    have hnil : newline.dropWhile isBlank = [] :=
      List.dropWhile_eq_nil_iff.2 (List.all_eq_true.1 (all_isBlank_newline hn))
    rw [trimStart, trimStart, List.dropWhile_append]
    split
    · next h => rw [hnil, List.isEmpty_iff.1 h]
    · exact withoutTerminator_append_newline hn
  simp only [commentBody?, hvisible]

theorem kind_append_newline : LineKind.of l (body ++ newline) = LineKind.of l body := by
  rw [LineKind.of, LineKind.of, allBlank_append_newline hn, commentBody?_append_newline hn]

theorem definedName?_append_newline :
    definedName? l (body ++ newline) = definedName? l body := by
  rw [definedName?, definedName?, withoutTerminator_append_newline hn]

theorem leadingSpace_append_newline : leadingSpace (body ++ newline) = leadingSpace body := by
  rw [leadingSpace, leadingSpace, withoutTerminator_append_newline hn]

/-- A word does not reach into what ends a line. -/
theorem occursIn_append_newline {mark : List Char} (hne : mark ≠ []) (hmark : OnOneLine mark) :
    occursIn mark (body ++ newline) = occursIn mark body := by
  refine occursIn_append hne (fun c hc hcm => ?_) body
  have hcr : c ≠ '\r' := fun he => hmark.1 (he ▸ hcm)
  have hcn : c ≠ '\n' := fun he => hmark.2 (he ▸ hcm)
  simpa [hcr, hcn] using isBlank_of_isNewline hn c hc

end Line

/-! ### Plain lines -/

/-- A line that ends with a line feed, and has no carriage return. -/
def IsPlainLine (line : Line) : Prop := ∃ body, OnOneLine body ∧ line = body ++ ['\n']

theorem isPlainLine_of_mem_splitLines {text : List Char} (hreturns : '\r' ∉ text)
    (hlast : text.getLast? = some '\n') {line : Line} (h : line ∈ splitLines text) :
    IsPlainLine line := by
  have hline : ∀ c ∈ line, c ∈ text := fun c hc => by
    rw [← flatten_splitLines text]
    exact List.mem_flatten.2 ⟨line, h, hc⟩
  have hterminated : IsTerminated line := by
    obtain ⟨front, back, hsplit⟩ := List.append_of_mem h
    have hlines := areLines_splitLines text
    rcases hlines.isLine line h with hterminated | ⟨hne, hfeed⟩
    · exact hterminated
    · cases back with
      | nil =>
        -- the text ends as its last line does
        rw [← flatten_splitLines text, hsplit, List.flatten_append, List.flatten_singleton,
          List.getLast?_append_of_ne_nil _ hne] at hlast
        exact absurd (List.mem_of_getLast? hlast) hfeed
      | cons next back =>
        have hpairwise := hsplit ▸ hlines.terminated
        exact (List.pairwise_cons.1 (List.pairwise_append.1 hpairwise).2.1).1 next (by simp)
  obtain ⟨body, rfl, hbody⟩ := hterminated
  exact ⟨body, ⟨fun hc => hreturns (hline _ (List.mem_append_left _ hc)), hbody⟩, rfl⟩

namespace IsPlainLine

variable {l : Language} {line : Line}

/-- A plain line with and without the carriage return. -/
theorem exists_body (h : IsPlainLine line) :
    ∃ body, OnOneLine body ∧ line = body ++ ['\n'] ∧ withReturns line = body ++ ['\r', '\n'] := by
  obtain ⟨body, hbody, rfl⟩ := h
  exact ⟨body, hbody, rfl, withReturns_terminated hbody.2⟩

/-- What does not depend on the terminator of a line is the same with a carriage return. -/
theorem apply_withReturns {α : Type} {f : Line → α} (h : IsPlainLine line)
    (hf : ∀ {body newline}, IsNewline newline → f (body ++ newline) = f body) :
    f (withReturns line) = f line := by
  obtain ⟨body, -, hline, hreturns⟩ := h.exists_body
  rw [hreturns, hline, hf (.inr rfl), hf (.inl rfl)]

theorem kind_withReturns (h : IsPlainLine line) :
    LineKind.of l (withReturns line) = LineKind.of l line :=
  h.apply_withReturns kind_append_newline

theorem definedName?_withReturns (h : IsPlainLine line) :
    definedName? l (withReturns line) = definedName? l line :=
  h.apply_withReturns definedName?_append_newline

theorem leadingSpace_withReturns (h : IsPlainLine line) :
    leadingSpace (withReturns line) = leadingSpace line :=
  h.apply_withReturns leadingSpace_append_newline

theorem occursIn_withReturns (h : IsPlainLine line) {mark : List Char} (hne : mark ≠ [])
    (hmark : OnOneLine mark) : occursIn mark (withReturns line) = occursIn mark line :=
  h.apply_withReturns fun hn => occursIn_append_newline hn hne hmark

theorem content_withReturns (h : IsPlainLine line) : content (withReturns line) = content line := by
  obtain ⟨body, hbody, hline, hreturns⟩ := h.exists_body
  have hlast : body.getLast? ≠ some '\r' := fun hr => hbody.1 (List.mem_of_getLast? hr)
  rw [hreturns, hline, content_append_newline (.inr rfl) hlast,
    content_append_newline (.inl rfl) hlast]

theorem not_mem_leadingSpace (h : IsPlainLine line) : '\n' ∉ leadingSpace line := by
  obtain ⟨body, hbody, rfl⟩ := h
  rw [leadingSpace_append_newline (.inl rfl), leadingSpace]
  intro hmem
  refine hbody.2 ?_
  rw [← dropTrailing_append (fun c => c == '\r' || c == '\n') body]
  exact List.mem_append_left _ ((List.takeWhile_sublist _).subset hmem)

theorem terminator?_eq (h : IsPlainLine line) : terminator? line = some ['\n']
    ∧ terminator? (withReturns line) = some ['\r', '\n'] := by
  obtain ⟨body, hbody, hline, hreturns⟩ := h.exists_body
  have hlast : body.reverse.head? ≠ some '\r' := fun hr =>
    hbody.1 (List.mem_reverse.1 (List.mem_of_head? hr))
  rw [hreturns, hline]
  cases hbody : body.reverse with
  | nil => simp [terminator?, endsWith, hbody]
  | cons c rest =>
    have hc : '\r' ≠ c := by simpa [hbody, eq_comm] using hlast
    simp [terminator?, endsWith, hbody, hc]

end IsPlainLine

/-! ### Pieces -/

/-- The piece with something done to its lines. -/
def Piece.mapLines (f : Line → Line) : Piece → Piece
  | line x => line (f x)
  | block format lines => block format (lines.map f)

theorem piecesFrom_map (f : Line → Line) (covered : Nat) (lines : List Line)
    (kinds : List LineKind) : piecesFrom covered (lines.map f) kinds
      = (piecesFrom covered lines kinds).map (Piece.mapLines f) := by
  induction lines generalizing covered kinds with
  | nil => rfl
  | cons line rest ih =>
    cases covered with
    | succ covered => exact ih covered kinds.tail
    | zero =>
      rw [List.map_cons, piecesFrom, piecesFrom]
      cases BlockFormat.recognize? kinds with
      | none => exact congrArg (Piece.line (f line) :: ·) (ih 0 kinds.tail)
      | some found =>
        rw [List.map_cons, ← ih, Piece.mapLines, List.map_take, List.map_cons]

/-- Lines fall into the same pieces when their kinds are the same. -/
theorem pieces_map {l : Language} {f : Line → Line} {lines : List Line}
    (h : ∀ line ∈ lines, LineKind.of l (f line) = LineKind.of l line) :
    pieces l (lines.map f) = (pieces l lines).map (Piece.mapLines f) := by
  have hkinds : (lines.map f).map (LineKind.of l) = lines.map (LineKind.of l) := by
    rw [List.map_map]
    exact List.map_congr_left h
  rw [pieces, hkinds, piecesFrom_map, ← pieces]

theorem keptLines_map (f : Line → Line) (ps : List Piece) :
    keptLines (ps.map (Piece.mapLines f)) = (keptLines ps).map f := by
  induction ps with
  | nil => rfl
  | cons p ps ih =>
    cases p with
    | line x => exact congrArg (f x :: ·) ih
    | block format lines => exact ih

theorem removedFrom_map (f : Line → Line) (start : Nat) (ps : List Piece) :
    removedFrom start (ps.map (Piece.mapLines f)) = removedFrom start ps := by
  induction ps generalizing start with
  | nil => rfl
  | cons p ps ih =>
    cases p with
    | line x => exact ih (start + 1)
    | block format lines =>
      rw [List.map_cons, Piece.mapLines, removedFrom, removedFrom, List.length_map, ih]

/-- What stays of a text, with carriage returns. -/
def Stripped.withReturns (s : Stripped) : Stripped := ⟨s.lines.map Text.withReturns, s.removed⟩

theorem Stripped.removed_withReturns (s : Stripped) : s.withReturns.removed = s.removed := rfl

theorem Stripped.text_withReturns (s : Stripped) : s.withReturns.text = crlf s.text := by
  rw [Stripped.text, Stripped.text, crlf, String.toList_ofList, withReturns_flatten,
    Stripped.withReturns]

/-- A text loses the same blocks with carriage returns. -/
theorem strip_crlf {l : Language} {text : String}
    (h : ∀ line ∈ splitLines text.toList, IsPlainLine line) :
    strip l (crlf text) = (strip l text).withReturns := by
  rw [strip, crlf, String.toList_ofList, splitLines_withReturns,
    pieces_map fun line hline => (h line hline).kind_withReturns, keptLines_map, removedFrom_map]
  rfl

/-! ### Places of blocks -/

/-- The patch with something done to the lines of its block. -/
def Patch.mapLines (f : Line → Line) (p : Patch) : Patch := { p with block := p.block.map f }

theorem weave_map (f : Line → Line) (lines : List Line) (patches : List Patch) :
    weave (lines.map f) (patches.map (Patch.mapLines f)) = (weave lines patches).map f := by
  have hblocks (i : Nat) :
      ((patches.map (Patch.mapLines f)).filter (·.anchor == i)).flatMap (·.block)
        = ((patches.filter (·.anchor == i)).flatMap (·.block)).map f := by
    rw [List.filter_map, List.flatMap_map, List.map_flatMap]
    rfl
  rw [weave, weave, List.zipIdx_map, List.flatMap_map, List.map_flatMap]
  refine List.flatMap_congr fun x _ => ?_
  rw [List.map_append, ← hblocks]
  rfl

theorem onOneLine_survivingMarks :
    ∀ mark ∈ survivingMarks, mark.toList ≠ [] ∧ OnOneLine mark.toList := by
  unfold OnOneLine
  decide

theorem claimsFrom_congr {s s' : Stripped} (h : s.removed = s'.removed) (free : List Anchor)
    (us : List (CodeUnit × Annotation)) : claimsFrom s free us = claimsFrom s' free us := by
  have hshifted : s.shifted = s'.shifted := by
    funext line
    rw [Stripped.shifted, Stripped.shifted, h]
  induction us generalizing free with
  | nil => rfl
  | cons x us ih =>
    rw [claimsFrom, claimsFrom, hshifted]
    cases claim? x.1.name (s'.shifted x.1.range.start) free with
    | none => exact congrArg ((x, none) :: ·) (ih free)
    | some claimed => exact congrArg ((x, some claimed.1) :: ·) (ih claimed.2)

theorem lt_of_mem_placedUnits {l : Language} {lookback : Nat} {s : Stripped}
    {units : List CodeUnit} {x : (CodeUnit × Annotation) × Nat}
    (h : x ∈ placedUnits lookback s (claimsOf l s units)) : x.2 < s.lines.length := by
  obtain ⟨c, hc, hx⟩ := List.mem_filterMap.1 h
  obtain ⟨line, hplace, rfl⟩ := Option.map_eq_some_iff.1 hx
  have hclaim : c = (c.1, some line) := Prod.ext rfl (Option.filter_eq_some_iff.1 hplace).1
  obtain ⟨_, hline, -⟩ := mem_anchorsFrom_iff.1 (mem_free_of_mem_claimsFrom (hclaim ▸ hc))
  exact (List.getElem?_eq_some_iff.1 hline).1

/-- The lines of a block with carriage returns are those of the block without. -/
theorem blockLines_withReturns {l : Language} {a : Annotation} {indent : List Char}
    (hindent : '\n' ∉ indent) : blockLines a l indent ['\r', '\n']
      = (blockLines a l indent ['\n']).map withReturns := by
  have hcomment {body : List Char} (hbody : OnOneLine body) :
      commentLine l indent ['\r', '\n'] body = withReturns (commentLine l indent ['\n'] body) := by
    obtain ⟨c, rest, hmark, -, hne⟩ := commentMark_cons l
    have hm : '\n' ∉ l.commentMark := fun h => absurd (hne '\n' (hmark ▸ h)) (by decide)
    have hfront : '\n' ∉ indent ++ l.commentMark ++ ' ' :: body := by simp [hindent, hm, hbody.2]
    rw [commentLine, commentLine, withReturns_terminated hfront]
  have hbodies : (linesOf (Json.toPrettyText (Json.toJson a))).map
      (commentLine l indent ['\r', '\n'])
      = ((linesOf (Json.toPrettyText (Json.toJson a))).map
        (commentLine l indent ['\n'])).map withReturns := by
    rw [List.map_map]
    exact List.map_congr_left fun body hbody => hcomment (spec_of_mem_linesOf hbody).1
  rw [blockLines_eq, blockLines_eq, List.map_append, List.map_cons, List.map_singleton,
    hcomment onOneLine_sentinel.1, hcomment onOneLine_sentinel.2, hbodies]

section Plain

variable {l : Language} {lookback : Nat} {s : Stripped} (hs : ∀ line ∈ s.lines, IsPlainLine line)

include hs

theorem anchorsFrom_withReturns :
    anchorsFrom l 0 s.withReturns.lines = anchorsFrom l 0 s.lines := by
  rw [Stripped.withReturns]
  generalize s.lines = lines at hs
  generalize 0 = index
  induction lines generalizing index with
  | nil => rfl
  | cons line rest ih =>
    rw [List.map_cons, anchorsFrom_cons, anchorsFrom_cons,
      (hs line (by simp)).definedName?_withReturns,
      ih (fun x hx => hs x (List.mem_cons_of_mem _ hx)) (index + 1)]

theorem hasSurvivingMark_withReturns (anchor : Nat) :
    hasSurvivingMark lookback s.withReturns.lines anchor
      = hasSurvivingMark lookback s.lines anchor := by
  rw [hasSurvivingMark, hasSurvivingMark, Stripped.withReturns, ← List.map_take, ← List.map_drop,
    List.any_map]
  rw [Bool.eq_iff_iff, List.any_eq_true, List.any_eq_true]
  refine exists_congr fun line => and_congr_right fun hline => ?_
  have hplain := hs line ((List.take_sublist _ _).subset ((List.drop_sublist _ _).subset hline))
  rw [Function.comp_apply, List.any_eq_true, List.any_eq_true]
  refine exists_congr fun mark => and_congr_right fun hmark => ?_
  obtain ⟨hne, hone⟩ := onOneLine_survivingMarks mark hmark
  rw [hplain.occursIn_withReturns hne hone]

theorem claimsOf_withReturns (units : List CodeUnit) :
    claimsOf l s.withReturns units = claimsOf l s units := by
  rw [claimsOf, claimsOf, anchorsFrom_withReturns hs]
  exact claimsFrom_congr s.removed_withReturns _ _

theorem place?_withReturns (c : Claim) : c.place? lookback s.withReturns = c.place? lookback s := by
  simp only [Claim.place?, hasSurvivingMark_withReturns hs]

/-- Blocks that stand among plain lines have line feeds alone. -/
theorem newlineFor_eq {line : Line} (h : line ∈ s.lines) : newlineFor s.lines line = ['\n']
    ∧ newlineFor s.withReturns.lines (withReturns line) = ['\r', '\n'] := by
  obtain ⟨hplain, hreturns⟩ := (hs line h).terminator?_eq
  rw [newlineFor, newlineFor, hplain, hreturns]
  exact ⟨rfl, rfl⟩

theorem blockAbove_withReturns {anchor : Nat} (h : anchor < s.lines.length) (a : Annotation) :
    blockAbove l s.withReturns.lines anchor a
      = (blockAbove l s.lines anchor a).map withReturns := by
  have hline : s.lines.getD anchor [] = s.lines[anchor] := List.getD_eq_getElem _ _ h
  have hreturns : s.withReturns.lines.getD anchor [] = withReturns s.lines[anchor] := by
    simp [Stripped.withReturns, List.getD, h]
  have hmem : s.lines[anchor] ∈ s.lines := List.getElem_mem h
  obtain ⟨hplain, hnewline⟩ := newlineFor_eq hs hmem
  rw [blockAbove, blockAbove, hline, hreturns, (hs _ hmem).leadingSpace_withReturns, hplain,
    hnewline, blockLines_withReturns (hs _ hmem).not_mem_leadingSpace]

theorem patchAt_withReturns {x : (CodeUnit × Annotation) × Nat} (h : x.2 < s.lines.length) :
    patchAt l s.withReturns x = (patchAt l s x).mapLines withReturns := by
  rw [patchAt, blockAbove_withReturns hs h]
  rfl

/-- With carriage returns the same units get the same blocks, with carriage returns. -/
theorem placeAll_withReturns (units : List CodeUnit) :
    (placeAll lookback l s.withReturns units).patches
        = (placeAll lookback l s units).patches.map (Patch.mapLines withReturns)
      ∧ (placeAll lookback l s.withReturns units).skipped
        = (placeAll lookback l s units).skipped := by
  obtain ⟨hpatches, hskipped⟩ := placeAll_claims lookback l s units
  obtain ⟨hpatches', hskipped'⟩ := placeAll_claims lookback l s.withReturns units
  rw [hpatches, hpatches', hskipped, hskipped', claimsOf_withReturns hs]
  have hplaced : placedUnits lookback s.withReturns = placedUnits lookback s := by
    funext cs
    simp only [placedUnits, place?_withReturns hs]
  have hvain : vainClaims lookback s.withReturns = vainClaims lookback s := by
    funext cs
    simp only [vainClaims, place?_withReturns hs]
  rw [hplaced, hvain, List.map_map]
  refine ⟨List.map_congr_left fun x hx => patchAt_withReturns hs ?_, rfl⟩
  exact lt_of_mem_placedUnits hx

end Plain

/-! ### Synchronizing -/

/-- The outcome for a text with carriage returns. -/
def SyncOutcome.withReturns (r : SyncOutcome) : SyncOutcome := { r with text := crlf r.text }

theorem crlf_bne (s s' : String) : (crlf s != crlf s') = (s != s') := by
  rw [Bool.eq_iff_iff, bne_iff_ne, bne_iff_ne, ne_eq, crlf_inj]

theorem synchronize_of_isPlainLine (lookback : Nat) {text : String} (l : Language)
    (units : List CodeUnit) (h : ∀ line ∈ splitLines text.toList, IsPlainLine line) :
    synchronize lookback (crlf text) l units = (synchronize lookback text l units).withReturns := by
  have hs : ∀ line ∈ (strip l text).lines, IsPlainLine line := fun line hline =>
    h line ((keptLines_sublist l _).subset hline)
  obtain ⟨hpatches, hskipped⟩ := @placeAll_withReturns l lookback _ hs units
  have hids : (sortBy (fun a b => a.anchor < b.anchor)
      ((placeAll lookback l (strip l text) units).patches.map (Patch.mapLines withReturns))).map
        (·.id)
      = (sortBy (fun a b => a.anchor < b.anchor)
        (placeAll lookback l (strip l text) units).patches).map (·.id) := by
    rw [← map_sortBy, List.map_map]
    rfl
  have htext : String.ofList (weave (strip l text).withReturns.lines
      ((placeAll lookback l (strip l text) units).patches.map
        (Patch.mapLines withReturns))).flatten
      = crlf (String.ofList (weave (strip l text).lines
        (placeAll lookback l (strip l text) units).patches).flatten) := by
    rw [crlf, String.toList_ofList, withReturns_flatten, Stripped.withReturns, weave_map]
  simp only [synchronize, SyncOutcome.withReturns, strip_crlf h, hpatches, hskipped, hids, htext,
    crlf_bne, Stripped.removed_withReturns]

theorem stripText_of_isPlainLine {text : String} (l : Language)
    (h : ∀ line ∈ splitLines text.toList, IsPlainLine line) :
    stripText (crlf text) l = (stripText text l).withReturns := by
  simp only [stripText, SyncOutcome.withReturns, strip_crlf h, Stripped.text_withReturns, crlf_bne,
    Stripped.removed_withReturns]

theorem segment_of_isPlainLine (o : SegmentOptions) {text : String} (file : String) (l : Language)
    (h : ∀ line ∈ splitLines text.toList, IsPlainLine line) :
    segment o (crlf text) file l = segment o text file l := by
  have hcontents : linesOf (crlf text) = linesOf text := by
    rw [linesOf, linesOf, contents, contents, crlf, String.toList_ofList, splitLines_withReturns,
      List.map_map]
    exact List.map_congr_left fun line hline => (h line hline).content_withReturns
  rw [segment, segment, hcontents]

/-- Line endings commute with everything that is done to a text. A text without carriage returns
that ends with a line feed, and the same text with a carriage return in front of every line feed,
are synchronized alike, stripped alike and cut into the same units: the outcomes differ in the
carriage returns of the new texts and in nothing else. -/
theorem synchronize_crlf (o : SegmentOptions) (lookback : Nat) (text file : String) (l : Language)
    (units : List CodeUnit) (hreturns : '\r' ∉ text.toList)
    (hlast : text.toList.getLast? = some '\n') :
    synchronize lookback (crlf text) l units
        = { synchronize lookback text l units with
            text := crlf (synchronize lookback text l units).text }
      ∧ stripText (crlf text) l
        = { stripText text l with text := crlf (stripText text l).text }
      ∧ segment o (crlf text) file l = segment o text file l := by
  have hplain : ∀ line ∈ splitLines text.toList, IsPlainLine line := fun line hline =>
    isPlainLine_of_mem_splitLines hreturns hlast hline
  exact ⟨synchronize_of_isPlainLine lookback l units hplain, stripText_of_isPlainLine l hplain,
    segment_of_isPlainLine o file l hplain⟩

/-- A block that is outdated, and one that is put above a nested definition. -/
theorem synchronize_crlf_nested :
    let text := "# --- END MADL ---\ndef f(x):\n    def g(y):\n        return y\n    return g\n"
    let unit : CodeUnit := ⟨⟨"g"⟩, "f.py", .python, none, "g", "g(y)", ⟨2, 4⟩, "", [], [], none,
      some ⟨"g", "", "", "", [], "", ""⟩, none⟩
    (synchronize 10 text .python [unit]).inserted = [⟨"g"⟩]
      ∧ (synchronize 10 text .python [unit]).stripped = [⟨.strayEnd, 0, 1⟩]
      ∧ synchronize 10 (crlf text) .python [unit] = { synchronize 10 text .python [unit] with
          text := crlf (synchronize 10 text .python [unit]).text }
      ∧ stripText (crlf text) .python
        = { stripText text .python with text := crlf (stripText text .python).text }
      ∧ segment {} (crlf text) "f.py" .python = segment {} text "f.py" .python :=
  ⟨by decide +kernel, by decide +kernel,
    synchronize_crlf {} 10 _ "f.py" .python _ (by decide +kernel) (by decide +kernel)⟩

end Marginalia
