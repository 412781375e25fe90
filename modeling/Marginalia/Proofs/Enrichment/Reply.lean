import Marginalia.Enrichment.Reply
import Marginalia.Proofs.LinePattern.Matching

/-!
A code fence around a reply says nothing. The first mark behind which nothing visible follows ends
the fence, and no mark inside the payload does, because the payload ends with something visible and
stands on lines of its own. So the payload is what the fence holds, as it is what is left of a bare
reply.
-/

namespace Marginalia

open Text Pattern

/-- A text with no white space at its ends. -/
structure IsTrimmed (text : List Char) : Prop where
  front : StartsOutside isBlank text
  back : StartsOutside isBlank text.reverse

instance (text : List Char) : Decidable (IsTrimmed text) :=
  decidable_of_iff (StartsOutside isBlank text ∧ StartsOutside isBlank text.reverse)
    ⟨fun h => ⟨h.1, h.2⟩, fun h => ⟨h.front, h.back⟩⟩

variable {p w v before after tag s : List Char} {found : Captures}

/-! ### White space around a text -/

/-- Every part of a trimmed text that goes on to its end ends with something visible. -/
theorem IsTrimmed.back_of_suffix {back : List Char} (hp : IsTrimmed p) (hne : back ≠ [])
    (h : back <:+ p) : StartsOutside isBlank back.reverse := by
  obtain ⟨front, rfl⟩ := h
  have hlast := hp.back
  obtain ⟨d, more, hmore⟩ := List.exists_cons_of_ne_nil (List.reverse_ne_nil_iff.2 hne)
  rw [List.reverse_append, hmore] at hlast
  rw [hmore]
  exact startsOutside_cons.2 (startsOutside_cons.1 hlast)

theorem dropWhile_append_eq_nil (hbefore : ∀ c ∈ before, isBlank c = true)
    (hafter : ∀ c ∈ after, isBlank c = true) :
    (before ++ [] ++ after).dropWhile isBlank = [] := by
  rw [List.append_nil, List.dropWhile_append_of_pos hbefore, List.dropWhile_eq_nil_iff]
  exact hafter

theorem trim_append (hp : IsTrimmed p) (hbefore : ∀ c ∈ before, isBlank c = true)
    (hafter : ∀ c ∈ after, isBlank c = true) : trim (before ++ p ++ after) = p := by
  cases p with
  | nil =>
    rw [trim, trimStart, dropWhile_append_eq_nil hbefore hafter]
    rfl
  | cons c p =>
    have hfront : StartsOutside isBlank (c :: p ++ after) :=
      startsOutside_cons.2 (startsOutside_cons.1 hp.front)
    have hback : ∀ d ∈ after.reverse, isBlank d = true := fun d hd =>
      hafter d (List.mem_reverse.1 hd)
    rw [trim, trimStart, List.append_assoc, dropWhile_append_of_startsOutside hbefore hfront,
      trimEnd, dropTrailing, List.reverse_append,
      dropWhile_append_of_startsOutside hback hp.back, List.reverse_reverse]

/-! ### The end of a fence -/

/-- What stands behind the group of a fence. -/
def fenceEnd : Pattern := .all [.span isBlank, .text fenceMark, .span isBlank, .atEnd]

theorem startsOutside_fenceMark (rest : List Char) : StartsOutside isBlank (fenceMark ++ rest) :=
  startsOutside_cons.2 (by decide)

/-- White space, a mark and white space end a fence. -/
theorem run_fenceEnd (hw : ∀ c ∈ w, isBlank c = true) (hafter : ∀ c ∈ after, isBlank c = true)
    (found : Captures) :
    run fenceEnd (w ++ (fenceMark ++ after)) found (fun _ found => some found) = some found := by
  have hlast : run (.span isBlank) (after ++ []) found
      (fun s found => run .atEnd s found fun _ found => some found) = some found :=
    run_span_of_some hafter (startsOutside_nil _) rfl
  simp only [fenceEnd, all, run_seq]
  refine run_span_of_some hw (startsOutside_fenceMark after) ?_
  refine run_text_eq_some_iff.2 ⟨after, rfl, ?_⟩
  rwa [List.append_nil] at hlast

/-- Nothing else does. -/
theorem exists_of_run_fenceEnd {r : Captures}
    (h : run fenceEnd s found (fun _ found => some found) = some r) :
    ∃ after, s.dropWhile isBlank = fenceMark ++ after ∧ ∀ c ∈ after, isBlank c = true := by
  have hgap : run fenceEnd s found (fun _ found => some found)
      = run (.text fenceMark) (s.dropWhile isBlank) found fun s found =>
        run (.span isBlank) s found fun s found =>
          run .atEnd s found fun _ found => some found := by
    simp only [fenceEnd, all, run_seq]
    exact run_span_of_rejects (rejects_text (by decide) (by decide))
  rw [hgap, run_text_eq_some_iff] at h
  obtain ⟨after, hmark, hafter⟩ := h
  refine ⟨after, hmark, ?_⟩
  obtain ⟨t, rest, ⟨rfl, ht⟩, hend, -⟩ := exists_longest_of_run_span hafter
  cases rest with
  | nil => rwa [List.append_nil]
  | cons c rest => cases hend

/-- No mark inside a text that ends with something visible ends a fence, if the text stands on lines
of its own. -/
theorem run_fenceEnd_eq_none {back : List Char} (hne : back ≠ [])
    (hback : StartsOutside isBlank back.reverse) :
    run fenceEnd (back ++ '\n' :: (fenceMark ++ after)) found (fun _ found => some found)
      = none := by
  rw [Option.eq_none_iff_forall_ne_some]
  intro r hr
  obtain ⟨blanks, hmark, hblanks⟩ := exists_of_run_fenceEnd hr
  -- a mark taken in the text would have the last mark behind it, which is visible
  have hvisible : '\x60' ∉ blanks := fun hmem => by
    have hblank := hblanks _ hmem
    revert hblank
    decide
  obtain ⟨c, front, hlast⟩ := List.exists_cons_of_ne_nil (List.reverse_ne_nil_iff.2 hne)
  have hc : isBlank c = false := startsOutside_cons.1 (hlast ▸ hback)
  have hdrop : back.dropWhile isBlank ≠ [] := fun hnil => by
    have hblank := List.dropWhile_eq_nil_iff.1 hnil c (List.mem_reverse.1 (hlast ▸ by simp))
    rw [hc] at hblank
    cases hblank
  rw [List.dropWhile_append, if_neg (by simpa using hdrop)] at hmark
  rcases List.append_eq_append_iff.1 hmark with ⟨more, hfence, hrest⟩ | ⟨more, -, hrest⟩
  · cases more with
    | nil => exact hvisible (by rw [← List.nil_append blanks, ← hrest]; simp [fenceMark])
    | cons d more =>
      obtain rfl : '\n' = d := (List.cons.inj hrest).1
      have hin : '\n' ∈ fenceMark := by rw [hfence]; simp
      exact absurd hin (by decide)
  · exact hvisible (by rw [hrest]; simp [fenceMark])

/-! ### Fences -/

/-- What a fence holds is its group, the white space around it left out. -/
theorem captures?_fence (hbefore : ∀ c ∈ before, isBlank c = true)
    (htag : ∀ c ∈ tag, isLetter c = true) (hw : ∀ c ∈ w, isBlank c = true)
    (hv : ∀ c ∈ v, isBlank c = true) (hafter : ∀ c ∈ after, isBlank c = true)
    (hname : StartsOutside isLetter (w ++ (p ++ (v ++ (fenceMark ++ after)))))
    (hfront : StartsOutside isBlank (p ++ (v ++ (fenceMark ++ after))))
    (hinside : ∀ back, back ≠ [] → back <:+ p → ∀ found,
      run fenceEnd (back ++ (v ++ (fenceMark ++ after))) found (fun _ found => some found)
        = none) :
    fence.captures? (before ++ (fenceMark ++ (tag ++ (w ++ (p ++ (v ++ (fenceMark ++ after)))))))
      = some [(1, p ++ (v ++ (fenceMark ++ after)), v ++ (fenceMark ++ after))] := by
  simp only [captures?, fence, all, run_seq, run_group]
  refine run_span_of_some hbefore (startsOutside_fenceMark _) ?_
  refine run_text_eq_some_iff.2 ⟨_, rfl, ?_⟩
  refine run_span_of_some htag hname ?_
  refine run_span_of_some hw hfront ?_
  refine run_frugal_of_shortest (fun _ _ => rfl) (fun back hne hback => ?_) ?_
  · have hnone := hinside back hne hback [(1, p ++ (v ++ (fenceMark ++ after)),
      back ++ (v ++ (fenceMark ++ after)))]
    simpa only [fenceEnd, all, run_seq] using hnone
  · have hend := run_fenceEnd hv hafter [(1, p ++ (v ++ (fenceMark ++ after)),
      v ++ (fenceMark ++ after))]
    simpa only [fenceEnd, all, run_seq] using hend

/-- The payload of a fence, on lines of its own. -/
theorem exists_captures?_fence (hp : IsTrimmed p) (hbefore : ∀ c ∈ before, isBlank c = true)
    (htag : ∀ c ∈ tag, isLetter c = true) (hafter : ∀ c ∈ after, isBlank c = true) :
    ∃ found, fence.captures? (before ++ (fenceMark ++ (tag ++ '\n' :: (p ++ '\n' :: (fenceMark
      ++ after))))) = some found ∧ found.get 1 = String.ofList p := by
  have hline : ∀ c ∈ ['\n'], isBlank c = true := List.all_eq_true.1 (by decide)
  cases p with
  | nil =>
    -- the line breaks on both sides are one stretch of white space
    have hlines : ∀ c ∈ ['\n', '\n'], isBlank c = true := List.all_eq_true.1 (by decide)
    refine ⟨_, captures?_fence (p := []) (v := []) hbefore htag hlines (by simp) hafter
      (startsOutside_cons.2 (by decide)) (startsOutside_fenceMark after) ?_, ?_⟩
    · exact fun back hne hback => absurd (List.suffix_nil.1 hback) hne
    · exact Captures.get_cons_self 1 [] _ []
  | cons c p =>
    refine ⟨_, captures?_fence (p := c :: p) (w := ['\n']) (v := ['\n']) hbefore htag hline
      hline hafter (startsOutside_cons.2 (by decide))
      (startsOutside_cons.2 (startsOutside_cons.1 hp.front)) ?_, ?_⟩
    · exact fun back hne hback _ => run_fenceEnd_eq_none hne (hp.back_of_suffix hne hback)
    · exact Captures.get_cons_self 1 (c :: p) _ []

/-- No mark begins within a text and ends in the white space behind it. -/
theorem isPrefixOf_append (hmark : fenceMark.isPrefixOf p = false)
    (hafter : ∀ c ∈ after, isBlank c = true) : fenceMark.isPrefixOf (p ++ after) = false := by
  rw [Bool.eq_false_iff] at hmark ⊢
  intro hprefix
  obtain ⟨rest, hrest⟩ := List.isPrefixOf_iff_prefix.1 hprefix
  rcases List.append_eq_append_iff.1 hrest with ⟨more, hp, -⟩ | ⟨more, hfence, hspace⟩
  · exact hmark (List.isPrefixOf_iff_prefix.2 ⟨more, hp.symm⟩)
  · cases more with
    | nil => exact hmark (List.isPrefixOf_iff_prefix.2 ⟨[], by simpa using hfence⟩)
    | cons c more =>
      have hblank := hafter c (by rw [hspace]; simp)
      have hvisible := List.all_eq_true.1 (show fenceMark.all (!isBlank ·) = true by decide) c
        (by rw [hfence]; simp)
      rw [hblank] at hvisible
      cases hvisible

/-- A reply that does not start with a mark is no fence. -/
theorem captures?_fence_eq_none (hp : IsTrimmed p) (hmark : fenceMark.isPrefixOf p = false)
    (hbefore : ∀ c ∈ before, isBlank c = true) (hafter : ∀ c ∈ after, isBlank c = true) :
    fence.captures? (before ++ p ++ after) = none := by
  have hreject : ∀ next, Rejects isBlank (run (.text fenceMark) · · next) := fun next =>
    rejects_text (by decide) (by decide)
  have hopen : dropFront? fenceMark ((before ++ p ++ after).dropWhile isBlank) = none := by
    cases p with
    | nil =>
      rw [dropWhile_append_eq_nil hbefore hafter]
      rfl
    | cons c p =>
      have hfront : StartsOutside isBlank (c :: p ++ after) :=
        startsOutside_cons.2 (startsOutside_cons.1 hp.front)
      rw [List.append_assoc, dropWhile_append_of_startsOutside hbefore hfront,
        dropFront?_eq_none_iff, isPrefixOf_append hmark hafter]
  simp only [captures?, fence, all, run_seq]
  rw [run_span_of_rejects (hreject _), run, run, hopen]

/-! ### Replies -/

/-- A text in a code fence that names its language by a tag. -/
def inFence (tag payload : String) : String :=
  String.ofList fenceMark ++ tag ++ "\n" ++ payload ++ "\n" ++ String.ofList fenceMark

section

variable {payload before after tag : String}

theorem stripFence_inFence (hpayload : IsTrimmed payload.toList)
    (htag : ∀ c ∈ tag.toList, isLetter c = true) (hbefore : isBlankString before = true)
    (hafter : isBlankString after = true) :
    stripFence (before ++ inFence tag payload ++ after) = payload := by
  obtain ⟨found, hfound, hget⟩ := exists_captures?_fence hpayload (List.all_eq_true.1 hbefore) htag
    (List.all_eq_true.1 hafter)
  have htext : (before ++ inFence tag payload ++ after).toList
      = before.toList ++ (fenceMark ++ (tag.toList
        ++ '\n' :: (payload.toList ++ '\n' :: (fenceMark ++ after.toList)))) := by
    simp [inFence]
  rw [stripFence, htext, hfound]
  exact hget.trans String.ofList_toList

theorem stripFence_bare (hpayload : IsTrimmed payload.toList)
    (hmark : fenceMark.isPrefixOf payload.toList = false) (hbefore : isBlankString before = true)
    (hafter : isBlankString after = true) : stripFence (before ++ payload ++ after) = payload := by
  have hbefore := List.all_eq_true.1 hbefore
  have hafter := List.all_eq_true.1 hafter
  have htext : (before ++ payload ++ after).toList
      = before.toList ++ payload.toList ++ after.toList := by
    rw [String.toList_append, String.toList_append]
  rw [stripFence, trimmed, htext, captures?_fence_eq_none hpayload hmark hbefore hafter]
  simp only [trim_append hpayload hbefore hafter, String.ofList_toList]

end

/-- A code fence around a reply says nothing. A payload without white space at its ends that does
not start with a mark itself is what is left of the reply, whether it stands in a fence, under any
tag, or bare, and whatever white space is around; so both replies hold the same verdict and the same
annotation, or fail alike. -/
theorem fence_says_nothing (payload tag before after : String)
    (hpayload : IsTrimmed payload.toList) (hmark : fenceMark.isPrefixOf payload.toList = false)
    (htag : ∀ c ∈ tag.toList, isLetter c = true) (hbefore : isBlankString before = true)
    (hafter : isBlankString after = true) :
    let fenced := before ++ inFence tag payload ++ after
    let bare := before ++ payload ++ after
    stripFence fenced = payload ∧ stripFence bare = payload
      ∧ verdictOfReply fenced = verdictOfReply bare
      ∧ annotationOfReply fenced = annotationOfReply bare := by
  intro fenced bare
  have hfenced : stripFence fenced = payload := stripFence_inFence hpayload htag hbefore hafter
  have hbare : stripFence bare = payload := stripFence_bare hpayload hmark hbefore hafter
  refine ⟨hfenced, hbare, ?_, ?_⟩
  · rw [verdictOfReply, verdictOfReply, hfenced, hbare]
  · rw [annotationOfReply, annotationOfReply, hfenced, hbare]

/-- A verdict with marks inside and behind it. -/
def markedPayload : String :=
  "\x7b\"reusable\": true, \"reusability_reason\": \"\x60\x60\x60\"\x7d\n\x60\x60\x60\nsaid\x60"

/-- The marks of the payload end no fence. -/
theorem fence_says_nothing_marked :
    stripFence ("\n" ++ inFence "json" markedPayload ++ " \n") = markedPayload
      ∧ verdictOfReply ("\n" ++ inFence "json" markedPayload ++ " \n")
        = verdictOfReply ("\n" ++ markedPayload ++ " \n") := by
  obtain ⟨hfenced, -, hverdict, -⟩ := fence_says_nothing markedPayload "json" "\n" " \n"
    (by decide) (by decide) (List.all_eq_true.1 (by decide)) (by decide) (by decide)
  exact ⟨hfenced, hverdict⟩

end Marginalia
