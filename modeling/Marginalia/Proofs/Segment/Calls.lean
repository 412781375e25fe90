import Marginalia.Proofs.Distinct
import Marginalia.Proofs.Header.Tokens
import Marginalia.Segment.CalledNames

/-!
The calls in a body. A call site is a maximal run of name characters with more than digits in it,
and a parenthesis behind it, perhaps behind white space. The scan meets every site of a text, each
of them once and in their order, and nothing else; it finds what the pattern of a call finds in one
place after the other. So a unit calls just the names at the sites of its body, in the order of
their first sites.
-/

namespace Marginalia

open Text Pattern

/-! ### Call sites -/

/-- A call, by the parts of the text it stands in. -/
structure CallSite where
  before : List Char
  /-- A maximal run of name characters, not all of them digits. -/
  run : List Char
  blanks : List Char
  /-- What follows behind the parenthesis. -/
  rest : List Char
  isRun : ∀ c ∈ run, isNameChar c = true
  startsRun : ∀ c ∈ before.getLast?, isNameChar c = false
  endsRun : StartsOutside isNameChar (blanks ++ ['('])
  areBlank : ∀ c ∈ blanks, isBlank c = true
  isNamed : run.dropWhile isDigit ≠ []

namespace CallSite

/-- The whole text. -/
def text (c : CallSite) : List Char := c.before ++ (c.run ++ (c.blanks ++ '(' :: c.rest))

/-- Where the run begins. -/
def place (c : CallSite) : Nat := c.before.length

/-- The name that is called: the run without its leading digits. -/
def name (c : CallSite) : String := String.ofList (c.run.dropWhile isDigit)

end CallSite

/-- At a place of the text a name is called. -/
def CallsAt (text : List Char) (place : Nat) (name : String) : Prop :=
  ∃ c : CallSite, c.text = text ∧ c.place = place ∧ c.name = name

/-! ### Runs of name characters -/

theorem isBlank_of_isNameChar {c : Char} (h : isNameChar c = true) : isBlank c = false := by
  rcases Bool.or_eq_true_iff.1 h with hstart | hdigit
  · exact isBlank_of_isNameStart hstart
  · simp only [isDigit, Bool.and_eq_true, decide_eq_true_eq, Char.le_def,
      UInt32.le_iff_toNat_le] at hdigit
    exact isBlank_of_graphic (Nat.le_trans (by decide) hdigit.1)
      (Nat.lt_of_le_of_lt hdigit.2 (by decide))

theorem isNameChar_of_isBlank {c : Char} (h : isBlank c = true) : isNameChar c = false := by
  rw [Bool.eq_false_iff]
  intro hname
  rw [isBlank_of_isNameChar hname] at h
  cases h

/-- White space and a parenthesis end a run of name characters. -/
theorem startsOutside_blanks {blanks : List Char} (hblanks : ∀ c ∈ blanks, isBlank c = true)
    (rest : List Char) : StartsOutside isNameChar (blanks ++ '(' :: rest) :=
  startsOutside_append (fun c hc => isNameChar_of_isBlank (hblanks c hc))
    (startsOutside_cons.2 (by decide))

/-- A parenthesis follows, perhaps behind white space. -/
theorem opensParenthesis_iff {s : List Char} :
    opensParenthesis s = true ↔
      ∃ blanks rest, s = blanks ++ '(' :: rest ∧ ∀ c ∈ blanks, isBlank c = true := by
  rw [opensParenthesis, beq_iff_eq]
  constructor
  · intro h
    obtain ⟨rest, hrest⟩ := List.head?_eq_some_iff.1 h
    refine ⟨s.takeWhile isBlank, rest, ?_, List.all_eq_true.1 List.all_takeWhile⟩
    rw [← hrest, takeWhile_append_trimStart]
  · rintro ⟨blanks, rest, rfl, hblanks⟩
    rw [trimStart, dropWhile_append_of_startsOutside hblanks (startsOutside_cons.2 (by decide))]
    rfl

section

variable {before run rest text : List Char} {d : Char} {place : Nat} {name : String}

/-- A site that does not begin before the text is at an end of its front part begins with a part of
what follows. -/
theorem CallSite.exists_before {c : CallSite} (htext : c.text = before ++ rest)
    (hplace : before.length ≤ c.place) :
    ∃ skipped, c.before = before ++ skipped
      ∧ rest = skipped ++ (c.run ++ (c.blanks ++ '(' :: c.rest)) := by
  have hbefore : before <+: c.before :=
    List.prefix_of_prefix_length_le ⟨rest, htext.symm⟩ ⟨_, rfl⟩ hplace
  obtain ⟨skipped, hskipped⟩ := hbefore
  refine ⟨skipped, hskipped.symm, ?_⟩
  rw [text, ← hskipped, List.append_assoc] at htext
  exact (List.append_cancel_left htext).symm

/-- No site begins in a run that the text ends with. -/
theorem not_callsAt_run (hrun : ∀ c ∈ run, isNameChar c = true)
    (hplace : before.length ≤ place) : ¬ CallsAt (before ++ run) place name := by
  rintro ⟨c, htext, rfl, -⟩
  obtain ⟨skipped, -, rfl⟩ := CallSite.exists_before htext hplace
  exact absurd (hrun '(' (by simp)) (by decide)

/-- Where the front part of a text ends and a run of name characters begins, the run is called if it
has a name in it and a parenthesis follows. -/
theorem callsAt_run (hbefore : ∀ c ∈ before.getLast?, isNameChar c = false)
    (hrun : ∀ c ∈ run, isNameChar c = true) (hd : isNameChar d = false)
    (hplace : before.length ≤ place) (hend : place ≤ before.length + run.length) :
    CallsAt (before ++ (run ++ d :: rest)) place name
      ↔ place = before.length ∧ run.dropWhile isDigit ≠ [] ∧ opensParenthesis (d :: rest) = true
        ∧ name = String.ofList (run.dropWhile isDigit) := by
  constructor
  · rintro ⟨c, htext, rfl, rfl⟩
    obtain ⟨skipped, hskipped, hrest⟩ := CallSite.exists_before htext hplace
    have hlength : skipped.length ≤ run.length := by
      rw [CallSite.place, hskipped, List.length_append] at hend
      omega
    have hfront : skipped <+: run :=
      List.prefix_of_prefix_length_le ⟨_, hrest.symm⟩ ⟨_, rfl⟩ hlength
    -- a run that begins later would follow upon a name character
    have hnil : skipped = [] := by
      by_contra hne
      have hlast : skipped.getLast hne ∈ c.before.getLast? := by
        rw [hskipped, List.getLast?_append_of_ne_nil _ hne, List.getLast?_eq_some_getLast hne]
        exact rfl
      have hname := hrun _ (hfront.subset (List.getLast_mem hne))
      rw [c.startsRun _ hlast] at hname
      cases hname
    subst hnil
    obtain ⟨rfl, hopens⟩ := eq_of_append_startsOutside hrun (startsOutside_cons.2 hd) c.isRun
      (startsOutside_blanks c.areBlank c.rest) hrest
    rw [List.append_nil] at hskipped
    refine ⟨by rw [CallSite.place, hskipped], c.isNamed, ?_, rfl⟩
    exact opensParenthesis_iff.2 ⟨c.blanks, c.rest, hopens, c.areBlank⟩
  · rintro ⟨rfl, hnamed, hopens, rfl⟩
    obtain ⟨blanks, behind, hrest, hblanks⟩ := opensParenthesis_iff.1 hopens
    rw [hrest]
    exact ⟨⟨before, run, blanks, behind, hrun, hbefore, startsOutside_blanks hblanks [], hblanks,
      hnamed⟩, rfl, rfl, rfl⟩

/-- What is called from there on is called there or behind the run. -/
theorem callsAt_from_run (hbefore : ∀ c ∈ before.getLast?, isNameChar c = false)
    (hrun : ∀ c ∈ run, isNameChar c = true) (hd : isNameChar d = false) :
    before.length ≤ place ∧ CallsAt (before ++ (run ++ d :: rest)) place name
      ↔ (run.dropWhile isDigit ≠ [] ∧ opensParenthesis (d :: rest) = true)
          ∧ place = before.length ∧ name = String.ofList (run.dropWhile isDigit)
        ∨ before.length + run.length < place
          ∧ CallsAt (before ++ (run ++ d :: rest)) place name := by
  constructor
  · rintro ⟨hplace, hcalls⟩
    rcases Nat.lt_or_ge (before.length + run.length) place with hlt | hle
    · exact .inr ⟨hlt, hcalls⟩
    · obtain ⟨hp, hnamed, hopens, hname⟩ := (callsAt_run hbefore hrun hd hplace hle).1 hcalls
      exact .inl ⟨⟨hnamed, hopens⟩, hp, hname⟩
  · rintro (⟨⟨hnamed, hopens⟩, rfl, hname⟩ | ⟨hplace, hcalls⟩)
    · exact ⟨le_rfl, (callsAt_run hbefore hrun hd le_rfl (Nat.le_add_right _ _)).2
        ⟨rfl, hnamed, hopens, hname⟩⟩
    · exact ⟨by omega, hcalls⟩

/-! ### The scan -/

/-- The scan puts the names that it finds behind the ones it has found. -/
theorem calledFrom_eq_append (run : List Char) (found : List String) (s : List Char) :
    calledFrom run found s = found.reverse ++ calledFrom run [] s := by
  induction s generalizing run found with
  | nil => simp [calledFrom]
  | cons c s ih =>
    simp only [calledFrom]
    split
    · exact ih _ _
    · split
      · rw [ih _ (_ :: found), ih _ [_], List.reverse_cons, List.append_assoc,
          List.reverse_singleton]
      · exact ih _ _

/-- At the end of a run the scan goes on with the name of the run, if the run is called, and then
with what the rest of the text calls. -/
theorem calledFrom_cons_of_not (hd : isNameChar d = false) (s : List Char) :
    calledFrom run [] (d :: s)
      = (if nameOfRun run ≠ [] ∧ opensParenthesis (d :: s) = true then
          [String.ofList (nameOfRun run)] else []) ++ calledNames s := by
  simp only [calledNames, calledFrom, hd, Bool.and_eq_true, Bool.not_eq_true',
    List.isEmpty_eq_false_iff, Bool.false_eq_true, if_false]
  split
  · rw [calledFrom_eq_append, List.reverse_singleton]
  · rw [List.nil_append]

/-- What a scan finds behind the front part of a text are the names that are called there, each at
its place, in their order. The induction is on what is still to be scanned; the run that is not
finished yet begins where the front part ends. -/
theorem exists_places_calledFrom (htext : text = before ++ (run.reverse ++ rest))
    (hbefore : ∀ c ∈ before.getLast?, isNameChar c = false)
    (hrun : ∀ c ∈ run, isNameChar c = true) :
    ∃ places : List (Nat × String), places.map (·.2) = calledFrom run [] rest
      ∧ places.Pairwise (·.1 < ·.1)
      ∧ ∀ place name, (place, name) ∈ places ↔ before.length ≤ place ∧ CallsAt text place name := by
  induction rest generalizing before run with
  | nil =>
    refine ⟨[], rfl, .nil, fun place name => ?_⟩
    rw [List.append_nil] at htext
    subst htext
    have hnone (h : before.length ≤ place) : ¬ CallsAt (before ++ run.reverse) place name :=
      not_callsAt_run (fun c hc => hrun c (List.mem_reverse.1 hc)) h
    simpa using hnone
  | cons d rest ih =>
    cases hd : isNameChar d with
    | true =>
      have hrun' : ∀ c ∈ d :: run, isNameChar c = true := List.forall_mem_cons.2 ⟨hd, hrun⟩
      obtain ⟨places, hnames, hsorted, hmem⟩ := ih (by simp [htext]) hbefore hrun'
      exact ⟨places, by simpa [calledFrom, hd] using hnames, hsorted, hmem⟩
    | false =>
      have hlast : ∀ c ∈ (before ++ run.reverse ++ [d]).getLast?, isNameChar c = false := by
        simpa using hd
      obtain ⟨places, hnames, hsorted, hmem⟩ :=
        @ih (before ++ run.reverse ++ [d]) [] (by simp [htext]) hlast (by simp)
      have hlength : (before ++ run.reverse ++ [d]).length = before.length + run.length + 1 := by
        simp [Nat.add_assoc]
      have hsplit (place : Nat) (name : String) : before.length ≤ place ∧ CallsAt text place name
          ↔ (nameOfRun run ≠ [] ∧ opensParenthesis (d :: rest) = true)
              ∧ place = before.length ∧ name = String.ofList (nameOfRun run)
            ∨ (place, name) ∈ places := by
        have hfrom := @callsAt_from_run before run.reverse rest d place name hbefore
          (fun c hc => hrun c (List.mem_reverse.1 hc)) hd
        rw [List.length_reverse, ← htext] at hfrom
        rw [hmem, hlength]
        exact hfrom
      rw [calledFrom_cons_of_not hd]
      by_cases hcalled : nameOfRun run ≠ [] ∧ opensParenthesis (d :: rest) = true
      · refine ⟨(before.length, String.ofList (nameOfRun run)) :: places, ?_, ?_, ?_⟩
        · rw [if_pos hcalled, List.map_cons, hnames, List.singleton_append, calledNames]
        · refine List.pairwise_cons.2 ⟨fun x hx => ?_, hsorted⟩
          have hplace := ((hmem x.1 x.2).1 hx).1
          rw [hlength] at hplace
          exact Nat.lt_of_le_of_lt (Nat.le_add_right _ _) hplace
        · intro place name
          rw [hsplit, List.mem_cons, Prod.mk.injEq, and_iff_right hcalled]
      · refine ⟨places, ?_, hsorted, fun place name => ?_⟩
        · rw [if_neg hcalled, hnames, List.nil_append, calledNames]
        · rw [hsplit, or_iff_right fun h => hcalled h.1]

/-- The names that a text calls, each at its place, in their order. -/
theorem exists_places (text : List Char) :
    ∃ places : List (Nat × String), places.map (·.2) = calledNames text
      ∧ places.Pairwise (·.1 < ·.1)
      ∧ ∀ place name, (place, name) ∈ places ↔ CallsAt text place name := by
  obtain ⟨places, hnames, hsorted, hmem⟩ :=
    @exists_places_calledFrom [] [] text text rfl (by simp) (by simp)
  exact ⟨places, hnames, hsorted, fun place name => by simpa using hmem place name⟩

end

/-! ### The pattern of a call -/

/-- A name, white space and a parenthesis: group 1 is the name. -/
def callShape : Pattern :=
  all [group 1 (seq (one isNameStart) (span isNameChar)), span isBlank, Shape.mark '(']

/-- The names that the pattern of a call finds in a text: at the first place where it fits, and then
behind what it took there. -/
inductive FindsCalls : List Char → List String → Prop
  | done : FindsCalls [] []
  | pass {c : Char} {rest : List Char} {names : List String}
      (fails : (group 0 callShape).captures? (c :: rest) = none)
      (later : FindsCalls rest names) : FindsCalls (c :: rest) names
  | find {s after : List Char} {found : Captures} {names : List String}
      (fits : (group 0 callShape).captures? s = some found)
      (ends : found.lookup 0 = some (s, after))
      (later : FindsCalls after names) : FindsCalls s (found.get 1 :: names)

section

variable {s w rest : List Char} {found : Captures} {next : Continuation}

theorem run_opening :
    run (all [span isBlank, Shape.mark '(']) s found next
      = run (Shape.mark '(') (trimStart s) found next := by
  change run (span isBlank) s found (run (Shape.mark '(') · · next) = _
  rw [run_span_of_rejects (rejects_mark (by decide))]
  rfl

theorem rejects_opening :
    Rejects isNameChar (run (all [span isBlank, Shape.mark '(']) · · next) := by
  intro c rest found hc
  change run (span isBlank) (c :: rest) found (run (Shape.mark '(') · · next) = none
  rw [run_span_of_not (isBlank_of_isNameChar hc)]
  exact rejects_mark (by decide) c rest found hc

/-- The pattern takes a whole run of name characters and looks for the parenthesis behind it. -/
theorem captures_callShape (hw : isName isNameStart isNameChar w = true)
    (hs : StartsOutside isNameChar s) :
    (group 0 callShape).captures? (w ++ s)
      = run (Shape.mark '(') (trimStart s) [(1, w ++ s, s)]
          fun s' found => some ((0, w ++ s, s') :: found) := by
  rw [captures?, run_group, callShape, run_all_cons, run_group,
    run_name hw hs (rejects_opening.group 1 _), run_opening]

theorem captures_callShape_of_not {c : Char} (hc : isNameStart c = false) :
    (group 0 callShape).captures? (c :: rest) = none := by
  rw [captures?, run_group, callShape, run_all_cons, run_group, run_seq, run, hc]
  rfl

end

section

variable {s w skipped : List Char} {names : List String}

/-- The pattern is not found where no name can begin. -/
theorem FindsCalls.skip (h : FindsCalls s names) (hskipped : ∀ c ∈ skipped, isNameStart c = false) :
    FindsCalls (skipped ++ s) names := by
  induction skipped with
  | nil => exact h
  | cons c skipped ih =>
    obtain ⟨hc, hrest⟩ := List.forall_mem_cons.1 hskipped
    exact .pass (captures_callShape_of_not hc) (ih hrest)

/-- The pattern is not found in a run of name characters that no parenthesis follows. -/
theorem FindsCalls.skip_run (h : FindsCalls s names) (hw : ∀ c ∈ w, isNameChar c = true)
    (hs : StartsOutside isNameChar s) (hopens : opensParenthesis s = false) :
    FindsCalls (w ++ s) names := by
  induction w with
  | nil => exact h
  | cons c w ih =>
    obtain ⟨hc, hrest⟩ := List.forall_mem_cons.1 hw
    refine .pass ?_ (ih hrest)
    cases hstart : isNameStart c with
    | false => exact captures_callShape_of_not hstart
    | true =>
      have hmisses : (trimStart s).head? ≠ some '(' := by
        simpa [opensParenthesis] using hopens
      change (group 0 callShape).captures? ((c :: w) ++ s) = none
      rw [captures_callShape (isName_cons.2 ⟨hstart, hrest⟩) hs]
      cases htrim : trimStart s with
      | nil => rfl
      | cons d rest =>
        have hd : (d == '(') = false := by simpa [htrim] using hmisses
        simp [Shape.mark, run, hd]

/-- The pattern takes a name with a parenthesis behind it. -/
theorem FindsCalls.find_name {blanks after : List Char} (h : FindsCalls after names)
    (hw : isName isNameStart isNameChar w = true) (hblanks : ∀ c ∈ blanks, isBlank c = true) :
    FindsCalls (w ++ (blanks ++ '(' :: after)) (String.ofList w :: names) := by
  have htrim : trimStart (blanks ++ '(' :: after) = '(' :: after :=
    dropWhile_append_of_startsOutside hblanks (startsOutside_cons.2 (by decide))
  have hcaptures := captures_callShape hw (startsOutside_blanks hblanks after)
  rw [htrim, Shape.mark, run_one_cons (by decide)] at hcaptures
  have hname (s : List Char) : Captures.get [(0, s, after),
      (1, w ++ (blanks ++ '(' :: after), blanks ++ '(' :: after)] 1 = String.ofList w := by
    rw [Captures.get_cons_of_ne (by decide), Captures.get_cons_self]
  rw [← hname]
  exact .find hcaptures rfl h

theorem calledNames_cons_of_not {c : Char} (hc : isNameChar c = false) (s : List Char) :
    calledNames (c :: s) = calledNames s := by
  rw [calledNames, calledFrom_cons_of_not hc, if_neg (by simp [nameOfRun]), List.nil_append]

theorem calledNames_blanks_append {blanks : List Char} (hblanks : ∀ c ∈ blanks, isBlank c = true)
    (after : List Char) : calledNames (blanks ++ '(' :: after) = calledNames after := by
  induction blanks with
  | nil => exact calledNames_cons_of_not (by decide) after
  | cons c blanks ih =>
    obtain ⟨hc, hrest⟩ := List.forall_mem_cons.1 hblanks
    rw [List.cons_append, calledNames_cons_of_not (isNameChar_of_isBlank hc), ih hrest]

theorem calledNames_run_append (hw : ∀ c ∈ w, isNameChar c = true) (s : List Char) :
    calledNames (w ++ s) = calledFrom w.reverse [] s := by
  have hfrom (run : List Char) :
      calledFrom run [] (w ++ s) = calledFrom (w.reverse ++ run) [] s := by
    induction w generalizing run with
    | nil => rfl
    | cons c w ih =>
      obtain ⟨hc, hrest⟩ := List.forall_mem_cons.1 hw
      rw [List.cons_append, calledFrom, if_pos hc, ih hrest, List.reverse_cons, List.append_assoc,
        List.singleton_append]
  rw [calledNames, hfrom, List.append_nil]

theorem isNameStart_of_isDigit {c : Char} (h : isDigit c = true) : isNameStart c = false := by
  simp only [isDigit, Bool.and_eq_true, decide_eq_true_eq, Char.le_def,
    UInt32.le_iff_toNat_le] at h
  have hpoints : ∀ n < 58, 48 ≤ n → isNameStart (Char.ofNat n) = false := by decide
  rw [← Char.ofNat_toNat c]
  exact hpoints c.toNat (Nat.lt_of_le_of_lt h.2 (by decide)) h.1

/-- What is left of a run without its leading digits is a name, or nothing. -/
theorem isName_dropWhile_isDigit (hw : ∀ c ∈ w, isNameChar c = true)
    (hne : w.dropWhile isDigit ≠ []) :
    isName isNameStart isNameChar (w.dropWhile isDigit) = true := by
  obtain ⟨c, rest, hrest⟩ := List.exists_cons_of_ne_nil hne
  have hmem : ∀ x ∈ c :: rest, isNameChar x = true := fun x hx =>
    hw x ((List.dropWhile_sublist isDigit).subset (hrest ▸ hx))
  have hfirst : isDigit c = false := by
    simpa [hrest] using List.head?_dropWhile_not isDigit w
  obtain ⟨hc, hmore⟩ := List.forall_mem_cons.1 hmem
  rw [hrest]
  refine isName_cons.2 ⟨?_, hmore⟩
  rw [isNameChar, hfirst, Bool.or_false] at hc
  exact hc

/-- The scan finds what the pattern finds. The induction is on the length of the text, which falls
into a run of name characters, perhaps an empty one, and what follows behind it. -/
theorem findsCalls_calledNames (text : List Char) : FindsCalls text (calledNames text) := by
  induction hn : text.length using Nat.strong_induction_on generalizing text with
  | _ n ih =>
    obtain ⟨run, s, rfl, hrun, hs⟩ := exists_startsOutside isNameChar text
    rw [calledNames_run_append hrun]
    cases s with
    | nil => exact FindsCalls.done.skip_run hrun hs rfl
    | cons d rest =>
      have hd := startsOutside_cons.1 hs
      have hshorter : ∀ {after : List Char}, after.length ≤ rest.length →
          FindsCalls after (calledNames after) := by
        intro after hle
        refine ih after.length ?_ after rfl
        rw [← hn, List.length_append, List.length_cons]
        omega
      have hdigits : ∀ c ∈ run.takeWhile isDigit, isNameStart c = false := fun c hc =>
        isNameStart_of_isDigit (List.all_eq_true.1 List.all_takeWhile c hc)
      rw [calledFrom_cons_of_not hd, nameOfRun, List.reverse_reverse]
      by_cases hcalled : run.dropWhile isDigit ≠ [] ∧ opensParenthesis (d :: rest) = true
      · rw [if_pos hcalled, List.singleton_append, ← calledNames_cons_of_not hd]
        obtain ⟨hnamed, hopens⟩ := hcalled
        obtain ⟨blanks, after, hafter, hblanks⟩ := opensParenthesis_iff.1 hopens
        have hlength : after.length ≤ rest.length := by
          have hlengths := congrArg List.length hafter
          rw [List.length_cons, List.length_append, List.length_cons] at hlengths
          omega
        rw [hafter, calledNames_blanks_append hblanks]
        have hname := (hshorter hlength).find_name (isName_dropWhile_isDigit hrun hnamed) hblanks
        simpa only [← List.append_assoc, List.takeWhile_append_dropWhile] using hname.skip hdigits
      · rw [if_neg hcalled, List.nil_append]
        have hpass : FindsCalls (d :: rest) (calledNames rest) :=
          .pass (captures_callShape_of_not (Bool.or_eq_false_iff.1 hd).1) (hshorter le_rfl)
        cases hopens : opensParenthesis (d :: rest) with
        | false => exact hpass.skip_run hrun hs hopens
        | true =>
          -- nothing but digits stands in the run
          have hnone : run.dropWhile isDigit = [] := by
            by_contra hnamed
            exact hcalled ⟨hnamed, hopens⟩
          rw [← List.takeWhile_append_dropWhile (p := isDigit) (l := run), hnone, List.append_nil]
          exact hpass.skip hdigits

theorem FindsCalls.unique {names' : List String} (h : FindsCalls s names)
    (h' : FindsCalls s names') : names = names' := by
  induction h generalizing names' with
  | done =>
    cases h' with
    | done => rfl
    | find fits ends later => cases fits
  | pass fails later ih =>
    cases h' with
    | pass _ later' => exact ih later'
    | find fits ends later' =>
      rw [fails] at fits
      cases fits
  | find fits ends later ih =>
    cases h' with
    | done => cases fits
    | pass fails _ =>
      rw [fails] at fits
      cases fits
    | find fits' ends' later' =>
      obtain rfl := Option.some.inj (fits.symm.trans fits')
      obtain ⟨-, rfl⟩ := Prod.mk.inj (Option.some.inj (ends.symm.trans ends'))
      rw [ih later']

theorem findsCalls_iff : FindsCalls s names ↔ names = calledNames s := by
  refine ⟨fun h => h.unique (findsCalls_calledNames s), ?_⟩
  rintro rfl
  exact findsCalls_calledNames s

end

/-! ### The calls of a unit -/

theorem countsAsCall_iff {own name : String} {l : Language} {skipPrivate : Bool} :
    countsAsCall own l skipPrivate name = true
      ↔ name ≠ own ∧ name ∉ l.reserved ∧ (skipPrivate = true → name.toList.head? ≠ some '_') := by
  cases skipPrivate <;> simp [countsAsCall, Language.reserves, and_assoc]

/-- A body calls a name if it is called at a place of it, is not the name of the unit, is no
reserved word and, where private names are skipped, does not begin with an underscore. Each name is
there once, and they come in the order of the places at which they are called first. -/
theorem callsOfBody_eq_called (body own : String) (l : Language) (skipPrivate : Bool) :
    (callsOfBody body own l skipPrivate).Nodup
      ∧ (∀ name, name ∈ callsOfBody body own l skipPrivate
          ↔ (∃ place, CallsAt body.toList place name) ∧ name ≠ own ∧ name ∉ l.reserved
            ∧ (skipPrivate = true → name.toList.head? ≠ some '_'))
      ∧ (callsOfBody body own l skipPrivate).Pairwise fun v w =>
          ∃ place, CallsAt body.toList place v ∧ ∀ place', CallsAt body.toList place' w →
            place < place' := by
  obtain ⟨places, hnames, hsorted, hplaces⟩ := exists_places body.toList
  have hmem (name : String) : name ∈ callsOfBody body own l skipPrivate
      ↔ (∃ place, CallsAt body.toList place name)
        ∧ countsAsCall own l skipPrivate name = true := by
    rw [callsOfBody, List.mem_eraseDups, List.mem_filter, ← hnames]
    simp [hplaces]
  have hordered : (callsOfBody body own l skipPrivate).Pairwise fun v w =>
      ∃ place, CallsAt body.toList place v ∧ ∀ place', CallsAt body.toList place' w →
        place < place' := by
    have hpairs := pairwise_eraseDups_map (f := Prod.snd)
      (hsorted.filter fun x => countsAsCall own l skipPrivate x.2)
    rw [callsOfBody, ← hnames, List.filter_map]
    refine hpairs.imp_of_mem fun {v w} _ hw hvw => ?_
    obtain ⟨⟨place, _⟩, hv, rfl, hleast⟩ := hvw
    refine ⟨place, (hplaces _ _).1 (List.mem_filter.1 hv).1, fun place' hcalls => ?_⟩
    refine hleast (place', w) (List.mem_filter.2 ⟨(hplaces _ _).2 hcalls, ?_⟩) rfl
    rw [List.mem_eraseDups] at hw
    obtain ⟨x, hx, rfl⟩ := List.mem_map.1 hw
    exact (List.mem_filter.1 hx).2
  refine ⟨hordered.imp fun {v w} hvw => ?_, fun name => ?_, hordered⟩
  · rintro rfl
    obtain ⟨place, hv, hleast⟩ := hvw
    exact absurd (hleast place hv) (Nat.lt_irrefl place)
  · rw [hmem, countsAsCall_iff]

/-- Digits in front belong to no name, and a letter that is not ASCII ends a run. -/
example : callsOfBody "9b (a(1)) + a(2) + é_c(0) + dé(if(a))" "a" .rust true = ["b"] := by
  decide +kernel

end Marginalia
