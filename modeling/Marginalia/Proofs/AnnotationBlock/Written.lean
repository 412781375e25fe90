import Marginalia.AnnotationBlock
import Marginalia.Proofs.AnnotationBlock.Pieces
import Marginalia.Proofs.Json.Layout

/-!
Blocks as they are written. Whatever an annotation says and whatever white space stands in front of
its block, the lines of the block are comments of which only the first and the last are sentinels.
So the block is recognized as a whole, in any text, and reads back as the annotation.
-/

namespace Marginalia

open Text Json

/-- A comment line as it is written. -/
def commentLine (l : Language) (indent newline body : List Char) : Line :=
  indent ++ l.commentMark ++ ' ' :: body ++ newline

/-- A text that stands on one line, whatever ends the line. -/
def OnOneLine (body : List Char) : Prop := '\r' ∉ body ∧ '\n' ∉ body

theorem blockLines_eq (a : Annotation) (l : Language) (indent newline : List Char) :
    blockLines a l indent newline
      = commentLine l indent newline startSentinel.toList
        :: (linesOf (toPrettyText (toJson a))).map (commentLine l indent newline)
        ++ [commentLine l indent newline endSentinel.toList] := by
  have hcomment : commentLine l indent newline
      = fun body => indent ++ l.commentMark ++ ' ' :: body ++ newline := rfl
  rw [hcomment, blockLines]

/-! ### Comment lines -/

theorem isBlank_of_isNewline {newline : List Char} (h : IsNewline newline) :
    ∀ c ∈ newline, (c == '\r' || c == '\n') = true := by
  rcases h with rfl | rfl <;> simp

theorem dropTrailing_eq_self {p : Char → Bool} {text : List Char} (h : ∀ c ∈ text, p c = false) :
    dropTrailing p text = text := by
  rcases List.eq_nil_or_concat text with rfl | ⟨front, c, rfl⟩
  · rfl
  · rw [List.concat_eq_append] at h ⊢
    exact dropTrailing_append_cons (h c (by simp)) front []

section CommentLine

variable {l : Language} {indent newline body : List Char}

/-- The mark of a comment is visible, and no part of a terminator. -/
theorem commentMark_cons (l : Language) : ∃ c rest, l.commentMark = c :: rest
    ∧ isBlank c = false ∧ ∀ d ∈ c :: rest, (d == '\r' || d == '\n') = false := by
  cases l with
  | python => exact ⟨'#', [], rfl, by decide, by simp⟩
  | _ => exact ⟨'/', ['/'], rfl, by decide, by simp⟩

theorem trimStart_commentLine (hi : ∀ c ∈ indent, isBlank c) :
    trimStart (commentLine l indent newline body) = l.commentMark ++ ' ' :: body ++ newline := by
  obtain ⟨c, rest, hmark, hc, -⟩ := commentMark_cons l
  rw [commentLine, trimStart, List.append_assoc, List.append_assoc,
    List.dropWhile_append_of_pos hi, hmark, List.cons_append,
    List.dropWhile_cons_of_neg (by simp [hc])]
  simp

theorem not_allBlank_commentLine : allBlank (commentLine l indent newline body) = false := by
  obtain ⟨c, rest, hmark, hc, -⟩ := commentMark_cons l
  simp [allBlank, commentLine, hmark, hc]

theorem commentBody?_commentLine (hi : ∀ c ∈ indent, isBlank c) (hn : IsNewline newline)
    (hb : OnOneLine body) : commentBody? l (commentLine l indent newline body) = some body := by
  obtain ⟨c, rest, hmark, -, hne⟩ := commentMark_cons l
  have hvisible : withoutTerminator (l.commentMark ++ ' ' :: body ++ newline)
      = l.commentMark ++ ' ' :: body := by
    rw [withoutTerminator, dropTrailing_append_of_all (isBlank_of_isNewline hn)]
    refine dropTrailing_eq_self fun d hd => ?_
    rcases List.mem_append.1 hd with hd | hd
    · exact hne d (hmark ▸ hd)
    · rcases List.mem_cons.1 hd with rfl | hd
      · decide
      · have hr : d ≠ '\r' := fun h => hb.1 (h ▸ hd)
        have hn : d ≠ '\n' := fun h => hb.2 (h ▸ hd)
        simp [hr, hn]
  have hfront : dropFront? l.commentMark (l.commentMark ++ ' ' :: body) = some (' ' :: body) :=
    dropFront?_eq_some_iff.2 rfl
  rw [commentBody?, trimStart_commentLine hi, hvisible, hfront]
  rfl

theorem kind_commentLine (hi : ∀ c ∈ indent, isBlank c) (hn : IsNewline newline)
    (hb : OnOneLine body) :
    LineKind.of l (commentLine l indent newline body) = .comment (sentinelOf? (trim body)) := by
  rw [LineKind.of, not_allBlank_commentLine, commentBody?_commentLine hi hn hb]
  rfl

theorem isTerminated_commentLine (hi : '\n' ∉ indent) (hn : IsNewline newline)
    (hb : OnOneLine body) : IsTerminated (commentLine l indent newline body) := by
  obtain ⟨c, rest, hmark, -, hne⟩ := commentMark_cons l
  have hm : '\n' ∉ l.commentMark := fun h => absurd (hne '\n' (hmark ▸ h)) (by decide)
  rcases hn with rfl | rfl
  · exact ⟨indent ++ l.commentMark ++ ' ' :: body, rfl, by simp [hi, hm, hb.2]⟩
  · exact ⟨indent ++ l.commentMark ++ ' ' :: body ++ ['\r'], by simp [commentLine],
      by simp [hi, hm, hb.2]⟩

theorem content_commentLine (hn : IsNewline newline) (hb : OnOneLine body) :
    content (commentLine l indent newline body) = indent ++ l.commentMark ++ ' ' :: body := by
  refine content_append_newline hn fun hlast => ?_
  rw [List.getLast?_append_cons] at hlast
  rcases List.mem_cons.1 (List.mem_of_getLast? hlast) with h | h
  · exact absurd h (by decide)
  · exact hb.1 h

end CommentLine

/-! ### Blocks -/

/-- A line of JSON is no sentinel. -/
theorem sentinelOf?_of_beginsToken {body : List Char} (h : BeginsToken body) :
    sentinelOf? (trim body) = none := by
  obtain ⟨n, c, rest, rfl, hc⟩ := h
  have hvisible : isBlank c = false := by
    simp only [opensToken, List.contains_eq_mem, decide_eq_true_eq, List.mem_cons,
      List.not_mem_nil, or_false] at hc
    rcases hc with rfl | rfl | rfl | rfl | rfl <;> decide
  have htrim : trim (List.replicate n ' ' ++ c :: rest) = c :: trimEnd rest := by
    have hspaces : ∀ d ∈ List.replicate n ' ', isBlank d = true := fun d hd =>
      List.eq_of_mem_replicate hd ▸ by decide
    rw [trim, trimStart, List.dropWhile_append_of_pos hspaces,
      List.dropWhile_cons_of_neg (by simp [hvisible]), trimEnd,
      ← List.nil_append (c :: rest), dropTrailing_append_cons hvisible, List.nil_append, ← trimEnd]
  have hdash : c ≠ '-' := by rintro rfl; exact absurd hc (by decide)
  have hequal : c ≠ '=' := by rintro rfl; exact absurd hc (by decide)
  have hne : ∀ s : String, s.toList.head? = some '-' → c :: trimEnd rest ≠ s.toList :=
    fun s hs h => hdash (by simpa [← h] using hs)
  have hlong : "=====".toList = '=' :: ("=====".toList).tail := by decide
  rw [htrim, sentinelOf?, if_neg (hne startSentinel (by decide)),
    if_neg (hne endSentinel (by decide)), hlong]
  simp [hequal, Ne.symm hequal]

theorem onOneLine_sentinel : OnOneLine startSentinel.toList ∧ OnOneLine endSentinel.toList := by
  unfold OnOneLine
  decide

/-- The bodies of a block stand on one line each and are no sentinels. -/
theorem spec_of_mem_linesOf {a : Annotation} {body : List Char}
    (h : body ∈ linesOf (toPrettyText (toJson a))) :
    OnOneLine body ∧ sentinelOf? (trim body) = none := by
  rw [linesOf, toPrettyText, String.toList_ofList] at h
  obtain ⟨hbegins, hr⟩ := (isLaidOut_annotationJson a).of_mem_contents h
  refine ⟨⟨hr, ?_⟩, sentinelOf?_of_beginsToken hbegins⟩
  obtain ⟨line, hline, rfl⟩ := List.mem_map.1 h
  exact not_mem_content ((areLines_splitLines _).isLine line hline)

section Block

variable {l : Language} {indent newline : List Char}

theorem mem_blockLines {a : Annotation} {line : Line}
    (h : line ∈ blockLines a l indent newline) :
    ∃ body, line = commentLine l indent newline body ∧ OnOneLine body := by
  rw [blockLines_eq] at h
  rcases List.mem_append.1 h with h | h
  · rcases List.mem_cons.1 h with rfl | h
    · exact ⟨_, rfl, onOneLine_sentinel.1⟩
    · obtain ⟨body, hbody, rfl⟩ := List.mem_map.1 h
      exact ⟨body, rfl, (spec_of_mem_linesOf hbody).1⟩
  · exact ⟨_, List.mem_singleton.1 h, onOneLine_sentinel.2⟩

theorem kinds_blockLines (a : Annotation) (hi : ∀ c ∈ indent, isBlank c) (hn : IsNewline newline) :
    (blockLines a l indent newline).map (LineKind.of l)
      = .comment (some .start)
        :: List.replicate (linesOf (toPrettyText (toJson a))).length (.comment none)
        ++ [.comment (some .stop)] := by
  have hstart : sentinelOf? (trim startSentinel.toList) = some .start := by decide
  have hstop : sentinelOf? (trim endSentinel.toList) = some .stop := by decide
  have hbodies : ((linesOf (toPrettyText (toJson a))).map (commentLine l indent newline)).map
      (LineKind.of l)
        = List.replicate (linesOf (toPrettyText (toJson a))).length (.comment none) := by
    rw [List.map_map, List.eq_replicate_iff]
    refine ⟨by simp, fun kind hkind => ?_⟩
    obtain ⟨body, hbody, rfl⟩ := List.mem_map.1 hkind
    obtain ⟨hline, hrole⟩ := spec_of_mem_linesOf hbody
    rw [Function.comp_apply, kind_commentLine hi hn hline, hrole]
  rw [blockLines_eq, List.map_append, List.map_cons, hbodies, List.map_singleton,
    kind_commentLine hi hn onOneLine_sentinel.1, kind_commentLine hi hn onOneLine_sentinel.2,
    hstart, hstop]

theorem recognize?_blockLines (a : Annotation) (hi : ∀ c ∈ indent, isBlank c)
    (hn : IsNewline newline) (rest : List LineKind) :
    BlockFormat.recognize? ((blockLines a l indent newline).map (LineKind.of l) ++ rest)
      = some (.delimited, (blockLines a l indent newline).length) := by
  rw [kinds_blockLines a hi hn, List.append_assoc, List.singleton_append,
    BlockFormat.recognize?_delimited]
  simp [blockLines_eq]

/-- A written block is cut as a whole, whatever stands behind it. -/
theorem pieces_blockLines_append (a : Annotation) (hi : ∀ c ∈ indent, isBlank c)
    (hn : IsNewline newline) (rest : List Line) :
    pieces l (blockLines a l indent newline ++ rest)
      = .block .delimited (blockLines a l indent newline) :: pieces l rest := by
  refine pieces_append ?_
  rw [List.map_append]
  exact recognize?_blockLines a hi hn _

theorem payload_blockLines (a : Annotation) (hi : ∀ c ∈ indent, isBlank c)
    (hn : IsNewline newline) :
    payload l (blockLines a l indent newline) = linesOf (toPrettyText (toJson a)) := by
  have hstop : sentinelOf? (trim endSentinel.toList) = some .stop := by decide
  have hkeep : ((linesOf (toPrettyText (toJson a))).map (commentLine l indent newline)).filter
      (LineKind.of l · == .comment none)
        = (linesOf (toPrettyText (toJson a))).map (commentLine l indent newline) := by
    refine List.filter_eq_self.2 fun line hline => ?_
    obtain ⟨body, hbody, rfl⟩ := List.mem_map.1 hline
    obtain ⟨hone, hrole⟩ := spec_of_mem_linesOf hbody
    rw [kind_commentLine hi hn hone, hrole, beq_self_eq_true]
  have hdrop : [commentLine l indent newline endSentinel.toList].filter
      (LineKind.of l · == .comment none) = [] := by
    rw [List.filter_cons_of_neg
      (by rw [kind_commentLine hi hn onOneLine_sentinel.2, hstop]; decide), List.filter_nil]
  rw [payload, blockLines_eq, List.cons_append, List.drop_succ_cons, List.drop_zero,
    List.filter_append, hkeep, hdrop, List.append_nil, List.filterMap_map]
  refine (List.filterMap_congr fun body hbody => ?_).trans List.filterMap_some
  exact commentBody?_commentLine hi hn (spec_of_mem_linesOf hbody).1

/-- A written block reads back as its annotation, whatever stands behind it. -/
theorem readBlock_blockLines_append (a : Annotation) (hi : ∀ c ∈ indent, isBlank c)
    (hn : IsNewline newline) (rest : List Line) :
    readBlock l (blockLines a l indent newline ++ rest) = .ok (.delimited, a) := by
  have hlaid := isLaidOut_annotationJson a
  have htext : joinLines (linesOf (toPrettyText (toJson a))) = pretty 0 (toJson a) := by
    rw [linesOf, toPrettyText, String.toList_ofList]
    exact joinLines_contents hlaid.noReturn (getLast?_pretty_annotationJson a)
  rw [readBlock, List.map_append, recognize?_blockLines a hi hn]
  simp only [List.take_left, payload_blockLines a hi hn]
  cases hbodies : linesOf (toPrettyText (toJson a)) with
  | nil =>
    obtain ⟨n, c, rest, htoken, -⟩ := hlaid.begins
    rw [hbodies, htoken] at htext
    exact absurd htext.symm (by simp [joinLines])
  | cons body bodies =>
    rw [hbodies] at htext
    simp only [htext]
    have hread := roundTrips_annotation a
    rw [← toPrettyText, hread.readText?_toPrettyText]

theorem readBlock_blockLines (a : Annotation) (hi : ∀ c ∈ indent, isBlank c)
    (hn : IsNewline newline) :
    readBlock l (blockLines a l indent newline) = .ok (.delimited, a) := by
  have hread := readBlock_blockLines_append (l := l) a hi hn []
  rwa [List.append_nil] at hread

end Block

/-- Reading undoes writing. Whatever the annotation says, only the outermost lines of its block are
sentinels, the comments between them hold its JSON text as it is, and reading from the first line on
gives the annotation back. -/
theorem readBlock_reverses_blockLines (a : Annotation) (l : Language)
    {indent newline : List Char} (hi : ∀ c ∈ indent, isBlank c) (hn : IsNewline newline)
    (rest : List Line) :
    (blockLines a l indent newline).map (LineKind.of l)
        = .comment (some .start)
          :: List.replicate (linesOf (toPrettyText (toJson a))).length (.comment none)
          ++ [.comment (some .stop)]
      ∧ payload l (blockLines a l indent newline) = linesOf (toPrettyText (toJson a))
      ∧ readBlock l (blockLines a l indent newline) = .ok (.delimited, a)
      ∧ readBlock l (blockLines a l indent newline ++ rest) = .ok (.delimited, a) :=
  ⟨kinds_blockLines a hi hn, payload_blockLines a hi hn, readBlock_blockLines a hi hn,
    readBlock_blockLines_append a hi hn rest⟩

/-- An annotation that quotes a block, with marks, escapes and line breaks of its own. -/
def quotingAnnotation : Annotation where
  methodName := "--- END MADL ---"
  className := "# --- MADL ---\r\n// \"\\\""
  intent := "\t===== MADL_METADATA\x85"
  description := ""
  keywords := ["", "\x00\n", "\x7b\x7d"]
  parameters := "f(a,\u2028b)"
  code := "/*\n--- END MADL ---\n*/"

theorem readBlock_blockLines_quotingAnnotation :
    (∀ c ∈ ['\t', '\u3000'], isBlank c) ∧ IsNewline ['\r', '\n']
      ∧ readBlock .cpp (blockLines quotingAnnotation .cpp ['\t', '\u3000'] ['\r', '\n'])
        = .ok (.delimited, quotingAnnotation) :=
  have hi : ∀ c ∈ ['\t', '\u3000'], isBlank c := List.all_eq_true.1 rfl
  ⟨hi, .inr rfl, (readBlock_reverses_blockLines quotingAnnotation .cpp hi (.inr rfl) []).2.2.1⟩

end Marginalia
