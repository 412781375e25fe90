import Marginalia.LocalRules
import Marginalia.Proofs.Header.Tokens

/-!
The parameters of a Python definition. The list is read up to the last closing parenthesis of the
line that a colon, or an arrow and a colon, can follow. What stands behind the colon takes part in
this: a call, a slice or a comment in the body can have such a parenthesis, and then everything up
to it passes for parameters.
-/

namespace Marginalia

open Pattern Shape Text

/-! ### The end of a parameter list -/

/-- A colon ends the header here: behind white space, and behind the arrow and the type of the
result if they are there. -/
def ClosesHeader (after : List Char) : Prop :=
  ∃ blanks arrow rest, after = blanks ++ (arrow ++ ':' :: rest) ∧ allBlank blanks = true
    ∧ (arrow = [] ∨ ∃ type, arrow = '-' :: '>' :: type ∧ ':' ∉ type)

/-- The part of the pattern behind the parameters and their parenthesis. -/
def closing : List Pattern := [gap, optional (seq (word "->") (upTo ':')), mark ':']

theorem run_mark_eq_some_iff {c : Char} {s : List Char} {found r : Captures} {next : Continuation} :
    run (mark c) s found next = some r ↔ ∃ rest, s = c :: rest ∧ next rest found = some r := by
  rw [mark, run_one_eq_some_iff]
  simp [and_left_comm]

/-- The text up to a character and the character itself. -/
theorem run_upTo_mark {c : Char} {t rest : List Char} {found : Captures} {next : Continuation}
    (ht : c ∉ t) :
    run (upTo c) (t ++ c :: rest) found (fun s' found' => run (mark c) s' found' next)
      = next rest found := by
  have hrejects : Rejects (· != c) fun s' found' => run (mark c) s' found' next :=
    rejects_one fun d hd => by simpa using hd
  have hall : ∀ d ∈ t, (d != c) = true := by
    intro d hd
    rw [bne_iff_ne]
    rintro rfl
    exact ht hd
  rw [upTo, run_span_of_rejects hrejects, run_whole hall (by simp)]
  exact run_one_cons (by simp)

theorem closesHeader_of_run_closing {s : List Char} {found r : Captures}
    (h : run (all closing) s found (fun _ found => some found) = some r) :
    r = found ∧ ClosesHeader s := by
  obtain ⟨blanks, t, rfl, hblanks, ht⟩ := exists_startsOutside isBlank s
  have hblank : allBlank blanks = true := List.all_eq_true.2 hblanks
  simp only [closing, run_all_cons] at h
  rw [run_gap hblank ht, run_optional, Option.or_eq_some_iff] at h
  -- with an arrow, or without
  rcases h with harrow | ⟨-, hcolon⟩
  · rw [run_seq, word, run_text_eq_some_iff] at harrow
    obtain ⟨rest, rfl, hrest⟩ := harrow
    obtain ⟨type, rest', ⟨rfl, htype⟩, hcolon, -⟩ := exists_longest_of_run_span hrest
    obtain ⟨body, rfl, hbody⟩ := run_mark_eq_some_iff.1 hcolon
    have hplain : ':' ∉ type := fun hmem => by simpa using htype ':' hmem
    exact ⟨(Option.some.inj hbody).symm, blanks, '-' :: '>' :: type, body, rfl, hblank,
      .inr ⟨type, rfl, hplain⟩⟩
  · obtain ⟨body, rfl, hbody⟩ := run_mark_eq_some_iff.1 hcolon
    exact ⟨(Option.some.inj hbody).symm, blanks, [], body, rfl, hblank, .inl rfl⟩

theorem run_closing {s : List Char} (h : ClosesHeader s) (found : Captures) :
    run (all closing) s found (fun _ found => some found) = some found := by
  obtain ⟨blanks, arrow, body, rfl, hblanks, harrow⟩ := h
  simp only [closing, run_all_cons]
  rcases harrow with rfl | ⟨type, rfl, htype⟩
  · rw [List.nil_append, run_gap hblanks (by simp; decide), run_optional_of_none rfl, mark,
      run_one_cons (by simp)]
    rfl
  · rw [run_gap hblanks (by simp; decide), run_optional, run_seq]
    have harrow : run (word "->") (('-' :: '>' :: type) ++ ':' :: body) found
        (fun s' found' => run (upTo ':') s' found' fun s' found' =>
          run (mark ':') s' found' fun s' found' =>
            run (all []) s' found' fun _ found => some found)
        = some found := run_upTo_mark htype
    rw [harrow, Option.some_or]

/-! ### Definition lines -/

/-- A line that opens a Python definition, part by part. -/
structure DefinitionLine where
  indent : List Char
  /-- The white space behind `async`, if that stands there. -/
  async : Option (List Char)
  /-- The white space behind `def`. -/
  space : List Char
  name : List Char
  gap : List Char
  /-- The text between the parentheses. -/
  params : List Char
  /-- What stands behind the parentheses: the end of the header and the rest of the line. -/
  after : List Char
  indent_blank : allBlank indent = true
  async_gap : ∀ blanks ∈ async, IsGap blanks
  space_gap : IsGap space
  isName_name : isName isNameStart isWord name = true
  gap_blank : allBlank gap = true
  params_flat : ∀ c ∈ params, c ≠ '(' ∧ c ≠ ')'
  closes : ClosesHeader after
  one_line : '\n' ∉ params ∧ '\n' ∉ after

namespace DefinitionLine

/-- Everything behind the opening parenthesis. -/
def inside (d : DefinitionLine) : List Char := d.params ++ ')' :: d.after

/-- The header from the name on. -/
def signature (d : DefinitionLine) : List Char := d.name ++ (d.gap ++ '(' :: d.inside)

/-- The header from `def` on. -/
def definition (d : DefinitionLine) : List Char :=
  "def".toList ++ (d.space ++ d.signature)

/-- The header from its first word on. -/
def header (d : DefinitionLine) : List Char :=
  match d.async with
  | none => d.definition
  | some blanks => "async".toList ++ (blanks ++ d.definition)

/-- The line. -/
def text (d : DefinitionLine) : Line := d.indent ++ d.header

/-- A text from the opening parenthesis on that can pass for the parameters: a closing parenthesis
and the end of the header follow it. -/
def CanBeParams (d : DefinitionLine) (params : List Char) : Prop :=
  ∃ after, d.inside = params ++ ')' :: after ∧ ClosesHeader after

variable (d : DefinitionLine)

theorem signature_visible : StartsOutside isBlank d.signature :=
  startsOutside_of_isName d.isName_name fun _ => isBlank_of_isNameStart

theorem definition_visible : StartsOutside isBlank d.definition :=
  startsOutside_cons.2 (by decide)

/-- What a definition starts with: a letter. -/
theorem header_start : ∃ c rest, d.header = c :: rest ∧ isNameStart c = true := by
  rw [header]
  cases d.async with
  | none => exact ⟨'d', _, rfl, by decide⟩
  | some blanks => exact ⟨'a', _, rfl, by decide⟩

theorem header_visible : StartsOutside isBlank d.header := by
  obtain ⟨c, rest, hheader, hc⟩ := d.header_start
  rw [hheader]
  exact startsOutside_cons.2 (isBlank_of_isNameStart hc)

/-! ### The parts in front of the parameters -/

variable (found : Captures) (next : Continuation)

theorem run_definition : run (spaced "def") d.definition found next = next d.signature found := by
  rw [definition, run_spaced (by decide) (by decide) d.space_gap d.signature_visible, if_pos rfl]

/-- The words in front of the name, `async` or not. -/
theorem run_header :
    run (all [optional (spaced "async"), spaced "def"]) d.header found next
      = next d.signature found := by
  rw [run_all_cons, all, header]
  cases hasync : d.async with
  | none =>
    have hnone : run (spaced "async") d.definition found (run (spaced "def") · · next) = none := by
      rw [definition, run_spaced (by decide) (by decide) d.space_gap d.signature_visible,
        if_neg (by decide)]
    rw [run_optional_of_none hnone, run_definition]
  | some blanks =>
    have hblanks := d.async_gap blanks hasync
    have hnone : run (spaced "def") ("async".toList ++ (blanks ++ d.definition)) found next
        = none := by
      rw [run_spaced (by decide) (by decide) hblanks d.definition_visible, if_neg (by decide)]
    rw [run_optional, run_spaced (by decide) (by decide) hblanks d.definition_visible, if_pos rfl,
      run_definition, hnone, Option.or_none]

/-- The name, up to the parenthesis. -/
theorem run_signature :
    run (all [group 1 ident, Shape.gap, mark '(']) d.signature found next
      = next d.inside ((1, d.signature, d.gap ++ '(' :: d.inside) :: found) := by
  have hout : StartsOutside isWord (d.gap ++ '(' :: d.inside) :=
    (startsOutside_blank_append d.gap_blank (startsOutside_cons.2 (by decide))).mono
      fun _ => isDollarWord_of_isWord
  have hparen : Rejects isWord (run (mark '(') · · next) := by
    refine rejects_one fun c hc => ?_
    rw [beq_eq_false_iff_ne]
    rintro rfl
    exact absurd hc (by decide)
  have hrejects : Rejects isWord (run (all [Shape.gap, mark '(']) · · next) :=
    rejects_all_cons (rejects_whole (fun _ => isBlank_of_isWord) hparen)
  rw [run_all_cons, run_group, ident]
  refine (run_name d.isName_name hout (hrejects.group 1 d.signature)).trans ?_
  rw [run_all_cons, run_gap d.gap_blank (by simp; decide), mark, all, run_one_cons (by simp)]

/-! ### The parameters -/

theorem inside_stretch {params after : List Char} (h : d.inside = params ++ ')' :: after) :
    IsStretch sameLine d.inside params (')' :: after) := by
  refine ⟨h, fun c hc => ?_⟩
  have hmem : c ∈ d.inside := by
    rw [h]
    exact List.mem_append_left _ hc
  rw [sameLine, bne_iff_ne]
  rintro rfl
  rcases List.mem_append.1 hmem with hparams | hafter
  · exact d.one_line.1 hparams
  · exact d.one_line.2 (List.mem_of_ne_of_mem (by decide) hafter)

theorem canBeParams_params : d.CanBeParams d.params := ⟨d.after, rfl, d.closes⟩

/-- The pattern takes the longest text that can pass for the parameters. -/
theorem run_parameters :
    ∃ params after, d.inside = params ++ ')' :: after ∧ ClosesHeader after
      ∧ (∀ other, d.CanBeParams other → other.length ≤ params.length)
      ∧ run (all (group 2 (span sameLine) :: mark ')' :: closing)) d.inside found
          (fun _ found => some found)
        = some ((2, params ++ ')' :: after, ')' :: after) :: found) := by
  have hcloses : ∀ {after}, ClosesHeader after →
      run (all (mark ')' :: closing)) (')' :: after) ((2, d.inside, ')' :: after) :: found)
        (fun _ found => some found) = some ((2, d.inside, ')' :: after) :: found) := by
    intro after hafter
    rw [run_all_cons, mark, run_one_cons (by simp)]
    exact run_closing hafter _
  rw [run_all_cons, run_group]
  cases hrun : run (span sameLine) d.inside found fun s' found' =>
      run (all (mark ')' :: closing)) s' ((2, d.inside, s') :: found')
        fun _ found => some found with
  | none =>
    -- the text between the parentheses is a choice
    have hnone := run_span_eq_none_iff.1 hrun d.params _ (d.inside_stretch rfl)
    rw [hcloses d.closes] at hnone
    cases hnone
  | some r =>
    obtain ⟨params, rest, ⟨hinside, -⟩, hr, hmax⟩ := exists_longest_of_run_span hrun
    rw [run_all_cons] at hr
    obtain ⟨after, rfl, hclosing⟩ := run_mark_eq_some_iff.1 hr
    obtain ⟨rfl, hafter⟩ := closesHeader_of_run_closing hclosing
    refine ⟨params, after, hinside, hafter, ?_, by rw [hinside]⟩
    rintro other ⟨after', hother, hafter'⟩
    refine hmax other _ (d.inside_stretch hother) ?_
    rw [hcloses hafter']
    exact Option.some_ne_none _

/-- The line as the pattern sees it. -/
theorem captures?_text :
    ∃ params after, d.inside = params ++ ')' :: after ∧ ClosesHeader after
      ∧ (∀ other, d.CanBeParams other → other.length ≤ params.length)
      ∧ pythonDefinition.captures? d.text
        = some [(2, params ++ ')' :: after, ')' :: after),
            (1, d.name ++ (d.gap ++ '(' :: d.inside), d.gap ++ '(' :: d.inside)] := by
  obtain ⟨params, after, hinside, hafter, hmax, hrun⟩ :=
    d.run_parameters [(1, d.signature, d.gap ++ '(' :: d.inside)]
  refine ⟨params, after, hinside, hafter, hmax, ?_⟩
  have hparts : pythonDefinition = all (Shape.gap :: ([optional (spaced "async"), spaced "def"]
      ++ ([group 1 ident, Shape.gap, mark '(']
        ++ group 2 (span sameLine) :: mark ')' :: closing))) := rfl
  rw [captures?, hparts, run_all_cons, text, run_gap d.indent_blank d.header_visible,
    run_all_append, run_header, run_all_append, run_signature]
  exact hrun

theorem opensNothing_text : opensNothing .python d.text = false := by
  obtain ⟨c, rest, hheader, hc⟩ := d.header_start
  obtain ⟨hvisible, htrim⟩ := visible_line d.indent_blank (isBlank_of_isNameStart hc) rest
  have hcomment : '#' ≠ c := by
    rintro rfl
    exact absurd hc (by decide)
  rw [opensNothing, text, hheader, hvisible, isCommentLine, htrim]
  simp [List.isPrefixOf, hcomment, Language.usesBraces]

/-- The longest text that can pass for the parameters is the list itself if no other closing
parenthesis is followed by the end of a header. -/
theorem eq_params_iff (d : DefinitionLine) {params : List Char} (hparams : d.CanBeParams params)
    (hmax : ∀ other, d.CanBeParams other → other.length ≤ params.length) :
    params = d.params ↔ ∀ more after, d.after = more ++ ')' :: after → ¬ ClosesHeader after := by
  constructor
  · rintro rfl more after hmore hcloses
    have hlonger : d.CanBeParams (d.params ++ ')' :: more) :=
      ⟨after, by simp [inside, hmore], hcloses⟩
    have hle := hmax _ hlonger
    rw [List.length_append, List.length_cons] at hle
    omega
  · intro hlast
    have hle := hmax d.params d.canBeParams_params
    obtain ⟨after, hinside, hcloses⟩ := hparams
    rcases List.append_eq_append_iff.1 hinside with ⟨more, rfl, hmore⟩ | ⟨more, hfront, -⟩
    · cases more with
      | nil => rw [List.append_nil]
      | cons c more =>
        obtain ⟨rfl, hafter⟩ := List.cons.inj hmore
        exact absurd hcloses (hlast more after hafter)
    · rw [hfront, List.length_append] at hle
      obtain rfl : more = [] := List.eq_nil_of_length_eq_zero (by omega)
      rw [hfront, List.append_nil]

end DefinitionLine

/-- A Python definition is read with its name, and with the longest text for its parameters behind
which the header can end. These are the parameters of the definition unless the rest of the line,
behind the colon or in the annotation, has another closing parenthesis that a colon, or an arrow and
a colon, can follow. -/
theorem header_of_definition_line (d : DefinitionLine)
    (hname : Language.python.reserves (String.ofList d.name) = false) :
    ∃ params, Header.ofLine? .python d.text
        = some ⟨String.ofList d.name, String.ofList params, none⟩
      ∧ d.CanBeParams params
      ∧ (∀ other, d.CanBeParams other → other.length ≤ params.length)
      ∧ (params = d.params
        ↔ ∀ more after, d.after = more ++ ')' :: after → ¬ ClosesHeader after) := by
  obtain ⟨params, after, hinside, hafter, hmax, hcaptures⟩ := d.captures?_text
  have hparams : d.CanBeParams params := ⟨after, hinside, hafter⟩
  refine ⟨params, ?_, hparams, hmax, d.eq_params_iff hparams hmax⟩
  have hshapes : Header.ofShapes? .python d.text
      = some ⟨String.ofList d.name, String.ofList params, none⟩ := by
    rw [Header.ofShapes?, hcaptures, Option.map_some, Header.ofGroups, Captures.get_cons_self,
      Captures.get_cons_of_ne (by decide), Captures.get_cons_self]
  rw [Header.ofLine?, d.opensNothing_text, if_neg (by decide), hshapes]
  simp only [Option.filter_some, isEmpty_of_isName d.isName_name, hname]
  rfl

/-- The line `async def fetch(url) -> bytes:`. -/
def fetchLine : DefinitionLine where
  indent := []
  async := some [' ']
  space := [' ']
  name := "fetch".toList
  gap := []
  params := ['u', 'r', 'l']
  after := " -> bytes:".toList
  indent_blank := allBlank_nil
  async_gap := by
    rintro blanks ⟨⟩
    exact ⟨by decide, by decide⟩
  space_gap := ⟨by decide, by decide⟩
  isName_name := by decide
  gap_blank := allBlank_nil
  params_flat := by simp
  closes := ⟨[' '], "-> bytes".toList, [], by decide, by decide, .inr ⟨" bytes".toList, by decide⟩⟩
  one_line := by decide

/-- Nothing behind these parameters has another parenthesis. -/
theorem header_of_definition_line_fetch : Language.python.reserves "fetch" = false
    ∧ Header.ofLine? .python fetchLine.text = some ⟨"fetch", "url", none⟩ := by
  have hname : Language.python.reserves "fetch" = false := by decide
  obtain ⟨params, hread, -, -, hown⟩ := header_of_definition_line fetchLine hname
  have hparams : params = fetchLine.params := by
    refine hown.2 fun more after hafter => absurd ?_ (show ')' ∉ fetchLine.after by decide)
    rw [hafter]
    exact List.mem_append_right more List.mem_cons_self
  exact ⟨hname, by rw [hread, hparams]; rfl⟩

/-- A definition whose body is a dictionary. -/
def tickLine : DefinitionLine where
  indent := []
  async := none
  space := [' ']
  name := "tick".toList
  gap := []
  params := []
  after := ": return \x7bnow(): 1\x7d".toList
  indent_blank := allBlank_nil
  async_gap := by simp
  space_gap := ⟨by decide, by decide⟩
  isName_name := by decide
  gap_blank := allBlank_nil
  params_flat := by simp
  closes := ⟨[], [], " return \x7bnow(): 1\x7d".toList, by decide, rfl, .inl rfl⟩
  one_line := by decide

/-- The call in the body ends what passes for parameters, and a unit without inputs seems to have
some. -/
theorem tickLine_borrows_parameters :
    Language.python.reserves (String.ofList tickLine.name) = false ∧ tickLine.params = []
      ∧ Header.ofLine? .python tickLine.text = some ⟨"tick", "): return \x7bnow(", none⟩
      ∧ LocalRules.hasInputs (String.ofList tickLine.params) = false
      ∧ LocalRules.hasInputs "): return \x7bnow(" = true := by
  decide +kernel

end Marginalia
