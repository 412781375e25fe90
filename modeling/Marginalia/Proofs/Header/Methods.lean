import Marginalia.Proofs.Header.ScriptShapes

/-!
The method headers of a script. Three shapes are tried in turn, and two of them can take a method
header for something else: a line that starts with the star of a generator looks like a comment, and
`function` needs nothing behind it, so it also takes the front of a longer name. Any other method
header is read with its own name and its own parameters.
-/

namespace Marginalia

open Pattern Shape Text

/-! ### Method lines -/

/-- A line that opens a method, part by part. -/
structure MethodLine where
  indent : List Char
  /-- Each modifier with the white space behind it. -/
  modifiers : List (String × List Char)
  /-- A star stands directly in front of the name. -/
  isGenerator : Bool
  name : List Char
  gap : List Char
  /-- The text between the parentheses. -/
  params : List Char
  /-- The white space in front of the brace. -/
  space : List Char
  /-- The white space behind the brace, up to the end of the line. -/
  trailing : List Char
  indent_blank : allBlank indent = true
  modifiers_known : ∀ m ∈ modifiers, m.1 ∈ methodModifiers
  modifiers_gap : ∀ m ∈ modifiers, IsGap m.2
  isName_name : isName isScriptStart isDollarWord name = true
  gap_blank : allBlank gap = true
  params_flat : ∀ c ∈ params, c ≠ '(' ∧ c ≠ ')'
  space_blank : allBlank space = true
  trailing_blank : allBlank trailing = true

namespace MethodLine

/-- The line from the brace on. -/
def opening (m : MethodLine) : List Char := m.space ++ '\x7b' :: m.trailing

/-- The line from the parenthesis on. -/
def arguments (m : MethodLine) : List Char := '(' :: (m.params ++ ')' :: m.opening)

/-- The line from the name on. -/
def signature (m : MethodLine) : List Char := m.name ++ (m.gap ++ m.arguments)

/-- The line from the star on, if there is one, else from the name on. -/
def method (m : MethodLine) : List Char :=
  if m.isGenerator then '*' :: m.signature else m.signature

/-- The line. -/
def text (m : MethodLine) : Line := m.indent ++ (modifierText m.modifiers ++ m.method)

/-- The line starts with the star of a generator. -/
def startsWithStar (m : MethodLine) : Bool := m.isGenerator && m.modifiers.isEmpty

/-- What is left of the name behind `function`, if that can be a name itself. -/
def nameTail? (m : MethodLine) : Option (List Char) :=
  if m.isGenerator then none
  else (dropFront? "function".toList m.name).filter fun tail => tail.head?.any isScriptStart

/-- The name of a function that the line is taken for: at most `async` stands in front of the
keyword that the method's name starts with. -/
def functionTail? (m : MethodLine) : Option (List Char) :=
  if m.modifiers.map (·.1) ∈ [[], ["async"]] then m.nameTail? else none

end MethodLine

namespace MethodLine

variable (m : MethodLine) {found : Captures} {next : Continuation}

/-! ### Parts of a method line -/

theorem isWordText_name : isWordText m.name = true :=
  isWordText_iff.2 (forall_of_isName m.isName_name (fun _ => isDollarWord_of_isScriptStart)
    fun _ => id)

theorem exists_signature : ∃ c rest, m.signature = c :: rest ∧ isScriptStart c = true := by
  obtain ⟨c, rest, hname, hc, -⟩ := exists_of_isName m.isName_name
  exact ⟨c, rest ++ (m.gap ++ m.arguments), by rw [signature, hname, List.cons_append], hc⟩

theorem signature_visible : StartsOutside isBlank m.signature :=
  startsOutside_of_isName m.isName_name fun _ hc =>
    isBlank_of_isDollarWord (isDollarWord_of_isScriptStart hc)

theorem method_visible : StartsOutside isBlank m.method := by
  rw [method]
  split
  · exact startsOutside_cons.2 (by decide)
  · exact m.signature_visible

theorem text_visible : StartsOutside isBlank (modifierText m.modifiers ++ m.method) :=
  modifierText_visible m.modifiers_known m.method_visible

/-- What the parameters leave in the captures, and the name if only a tail of it is read. -/
def captures (tail : List Char) : Captures :=
  [(2, m.params ++ ')' :: m.opening, ')' :: m.opening),
    (1, tail ++ (m.gap ++ m.arguments), m.gap ++ m.arguments)]

theorem run_namePattern_tail {tail : List Char}
    (htail : isName isScriptStart isDollarWord tail = true) :
    run (all namePattern) (tail ++ (m.gap ++ m.arguments)) [] next
      = next m.opening (m.captures tail) :=
  run_namePattern htail m.gap_blank m.params_flat

theorem isName_tail {tail : List Char} (hname : m.name = "function".toList ++ tail)
    (hstart : tail.head?.any isScriptStart = true) :
    isName isScriptStart isDollarWord tail = true := by
  cases tail with
  | nil => cases hstart
  | cons c tail =>
    refine isName_cons.2 ⟨by simpa using hstart, fun d hd => ?_⟩
    have hmem : d ∈ m.name := by
      rw [hname]
      exact List.mem_append_right _ (List.mem_cons_of_mem c hd)
    exact isWordText_iff.1 m.isWordText_name d hmem

/-! ### The three shapes -/

theorem run_functionPattern : run (all functionPattern) m.method [] (fun _ found => some found)
    = m.nameTail?.map m.captures := by
  rw [nameTail?, method]
  split
  · exact rejects_functionPattern '*' _ _ (by decide)
  · rw [signature, arguments, run_functionPattern_of_name m.isWordText_name m.gap_blank]
    cases htail : (dropFront? "function".toList m.name).filter fun tail =>
        tail.head?.any isScriptStart with
    | none => rfl
    | some tail =>
      obtain ⟨hfront, hstart⟩ := Option.filter_eq_some_iff.1 htail
      exact m.run_namePattern_tail (m.isName_tail (dropFront?_eq_some_iff.1 hfront) hstart)

theorem run_functionWords :
    run (all (functionWords ++ functionPattern)) m.method [] (fun _ found => some found)
      = m.nameTail?.map m.captures := by
  rw [← run_functionPattern, method]
  split
  · rw [show run (all (functionWords ++ functionPattern)) ('*' :: m.signature) [] _ = none from
      rejects_functionWords '*' _ _ (by decide)]
    exact (rejects_functionPattern '*' _ _ (by decide)).symm
  · exact run_functionWords_of_name m.isWordText_name m.gap_blank

theorem captures?_scriptFunction :
    scriptFunction.captures? m.text = m.functionTail?.map m.captures := by
  have hparts : scriptFunction = all (Shape.gap :: (functionWords ++ functionPattern)) := rfl
  rw [captures?, hparts, text, run_all_cons, run_gap m.indent_blank m.text_visible, functionTail?]
  have hknown := m.modifiers_known
  have hgaps := m.modifiers_gap
  cases hms : m.modifiers with
  | nil => simpa [modifierText] using m.run_functionWords
  | cons first ms =>
    rw [hms] at hknown hgaps
    obtain ⟨hfirst, hknown⟩ := List.forall_mem_cons.1 hknown
    obtain ⟨hgap, hgaps⟩ := List.forall_mem_cons.1 hgaps
    rw [modifierText_cons, List.append_assoc, List.append_assoc,
      run_functionWords_of_modifier hfirst hgap (modifierText_visible hknown m.method_visible)]
    split
    · next hasync =>
      -- behind `async` the keyword has to come at once
      cases ms with
      | nil => simpa [modifierText, hasync] using m.run_functionPattern
      | cons second ms =>
        obtain ⟨hsecond, -⟩ := List.forall_mem_cons.1 hknown
        obtain ⟨hgap, -⟩ := List.forall_mem_cons.1 hgaps
        rw [modifierText_cons, List.append_assoc, List.append_assoc,
          run_functionPattern_of_modifier hsecond hgap.startsOutside]
        simp
    · next hother => simp [hother]

theorem captures?_scriptArrow : scriptArrow.captures? m.text = none := by
  obtain ⟨ending, hparts⟩ : ∃ ending, scriptArrow
      = all (Shape.gap :: (optionalWords ["export"] ++ variablePattern ending)) := ⟨_, rfl⟩
  rw [captures?, hparts, text, run_all_cons, run_gap m.indent_blank m.text_visible]
  cases hms : m.modifiers with
  | cons first ms =>
    have hfirst : first ∈ m.modifiers := by rw [hms]; exact List.mem_cons_self
    rw [modifierText_cons, List.append_assoc, List.append_assoc]
    exact run_variable_of_modifier (m.modifiers_known first hfirst)
      (m.modifiers_gap first hfirst).startsOutside
  | nil =>
    rw [modifierText, List.flatMap_nil, List.nil_append, method]
    split
    · exact rejects_exported '*' _ _ (by decide)
    · exact run_variable_of_name m.isWordText_name m.gap_blank

theorem run_methodPattern : run (all methodPattern) m.method [] (fun _ found => some found)
    = some (m.captures m.name) := by
  have hsignature : run (all (namePattern ++ bracePattern)) m.signature []
      (fun _ found => some found) = some (m.captures m.name) := by
    rw [run_all_append, signature, m.run_namePattern_tail m.isName_name, opening,
      run_bracePattern m.space_blank m.trailing_blank]
  rw [methodPattern, run_all_cons, method]
  split
  · rw [run_optional, mark, run_one_cons rfl, hsignature, Option.some_or]
  · obtain ⟨c, rest, hc, hstart⟩ := m.exists_signature
    have hstar : ∀ next, run (mark '*') m.signature [] next = none := by
      intro next
      rw [hc]
      exact rejects_mark (p := isScriptStart) (by decide) c rest [] hstart
    rw [run_optional_of_none (hstar _), hsignature]

theorem captures?_scriptMethod : scriptMethod.captures? m.text = some (m.captures m.name) := by
  have hparts : scriptMethod = all (Shape.gap :: many modifierPattern :: methodPattern) := rfl
  have hlength : m.modifiers.length ≤ (modifierText m.modifiers ++ m.method).length := by
    have hle := length_le_modifierText m.modifiers_gap
    rw [List.length_append]
    omega
  rw [captures?, hparts, text, run_all_cons, run_gap m.indent_blank m.text_visible, run_all_cons,
    run]
  refine repeatStep_modifiers m.modifiers_known m.modifiers_gap m.method_visible (fun fuel => ?_)
    hlength
  rw [repeatStep_of_none fuel fun n => ?_, run_methodPattern]
  -- the name is not taken for one more modifier, because nothing opens a name at the parenthesis
  rw [method]
  split
  · exact rejects_modifierPattern '*' _ _ (by decide)
  · refine run_modifierPattern_of_name m.isWordText_name m.gap_blank ?_
    rw [repeatStep_of_none n fun _ => rejects_modifierPattern '(' _ _ (by decide)]
    exact run_methodPattern_parenthesis

/-! ### Lines that open nothing -/

/-- The line starts with the star of a generator, or with what opens an identifier. -/
theorem exists_start : ∃ c rest, modifierText m.modifiers ++ m.method = c :: rest
    ∧ if m.startsWithStar then c = '*' else isScriptStart c = true := by
  rw [startsWithStar]
  cases hms : m.modifiers with
  | cons first ms =>
    have hfirst : first ∈ m.modifiers := by
      rw [hms]
      exact List.mem_cons_self
    obtain ⟨c, cs, hcs, hstart⟩ := exists_modifier_start (m.modifiers_known first hfirst)
    rw [modifierText_cons, hcs]
    exact ⟨c, _, rfl, by simpa using hstart⟩
  | nil =>
    rw [method]
    cases m.isGenerator with
    | true => exact ⟨'*', m.signature, rfl, rfl⟩
    | false =>
      obtain ⟨c, rest, hsignature, hstart⟩ := m.exists_signature
      exact ⟨c, rest, hsignature, hstart⟩

theorem isCommentLine_text {l : Language} (hl : l ≠ .python) :
    isCommentLine l m.text = m.startsWithStar := by
  obtain ⟨c, rest, hline, hc⟩ := m.exists_start
  have hblank : isBlank c = false := startsOutside_cons.1 (hline ▸ m.text_visible)
  obtain ⟨-, htrim⟩ := visible_line m.indent_blank hblank rest
  have hcomment : isCommentLine l m.text
      = (['/', '/'].isPrefixOf (c :: rest) || ['/', '*'].isPrefixOf (c :: rest)
        || ['*'].isPrefixOf (c :: rest)
        || (['#'].isPrefixOf (c :: rest) && !(['#', '['].isPrefixOf (c :: rest)))) := by
    rw [text, hline]
    cases l with
    | python => exact absurd rfl hl
    | _ => simp only [isCommentLine, htrim]
  rw [hcomment]
  split at hc
  · next hstar =>
    subst hc
    simp [List.isPrefixOf, hstar]
  · next hstar =>
    have hne : ∀ d, isScriptStart d = false → (d == c) = false := by
      intro d hd
      rw [beq_eq_false_iff_ne]
      rintro rfl
      simp [hd] at hc
    simp [List.isPrefixOf, hne '/' (by decide), hne '*' (by decide), hne '#' (by decide), hstar]

theorem exists_front : ∃ front, m.text = front ++ '\x7b' :: m.trailing := by
  have hsignature : ∃ front, m.signature = front ++ '\x7b' :: m.trailing :=
    ⟨m.name ++ (m.gap ++ '(' :: (m.params ++ ')' :: m.space)), by
      simp [signature, arguments, opening]⟩
  obtain ⟨front, hsignature⟩ := hsignature
  rw [text, method, hsignature]
  split
  · exact ⟨m.indent ++ (modifierText m.modifiers ++ '*' :: front), by simp⟩
  · exact ⟨m.indent ++ (modifierText m.modifiers ++ front), by simp⟩

theorem isDeclaration_text : isDeclaration m.text = false := by
  obtain ⟨front, htext⟩ := m.exists_front
  have htrailing : dropTrailing isBlank m.trailing = [] :=
    dropTrailing_append_of_all (List.all_eq_true.1 m.trailing_blank) []
  rw [isDeclaration, htext, trimEnd, dropTrailing_append_cons (by decide), htrailing]
  simp

theorem opensNothing_text {l : Language} (hl : l ≠ .python) :
    opensNothing l m.text = m.startsWithStar := by
  obtain ⟨c, rest, hline, -⟩ := m.exists_start
  have hblank : isBlank c = false := startsOutside_cons.1 (hline ▸ m.text_visible)
  have hvisible : allBlank m.text = false := by
    rw [text, hline]
    exact (visible_line m.indent_blank hblank rest).1
  rw [opensNothing, hvisible, m.isCommentLine_text hl, m.isDeclaration_text, Bool.and_false,
    Bool.false_or, Bool.or_false]

/-! ### The header -/

theorem functionTail?_ne_nil {tail : List Char} (h : m.functionTail? = some tail) :
    tail ≠ [] := by
  obtain ⟨-, h⟩ := Option.ite_none_right_eq_some.1 h
  obtain ⟨-, h⟩ := Option.ite_none_left_eq_some.1 h
  have hstart := (Option.filter_eq_some_iff.1 h).2
  rintro rfl
  cases hstart

theorem ofGroups_captures (tail : List Char) :
    Header.ofGroups (m.captures tail) 1 2 none
      = ⟨String.ofList tail, String.ofList m.params, none⟩ := by
  rw [captures, Header.ofGroups, Captures.get_cons_self, Captures.get_cons_of_ne (by decide),
    Captures.get_cons_self]

/-- The shape of a function is tried first, and the shape of a method fits in any case. -/
theorem ofShapes?_text {l : Language} (hl : l = .javascript ∨ l = .typescript) :
    Header.ofShapes? l m.text
      = some ⟨String.ofList (m.functionTail?.getD m.name), String.ofList m.params, none⟩ := by
  have hshapes : Header.ofShapes? l m.text
      = ([scriptFunction, scriptArrow, scriptMethod].findSome? (·.captures? m.text)).map
        (Header.ofGroups · 1 2 none) := by
    rcases hl with rfl | rfl <;> rfl
  rw [hshapes, List.findSome?_cons, m.captures?_scriptFunction]
  cases m.functionTail? with
  | some tail => simp [m.ofGroups_captures]
  | none =>
    simp [m.captures?_scriptArrow, m.captures?_scriptMethod, m.ofGroups_captures]

end MethodLine

/-- A method header of a script is read with its own name and its own parameters, with two
exceptions. One that starts with the star of a generator is no header at all. Where at most `async`
stands in front of a name that starts with `function`, only what is left of the name is read, and
not even that if it is reserved. -/
theorem header_of_method_line {l : Language} (hl : l = .javascript ∨ l = .typescript)
    (m : MethodLine) (hname : l.reserves (String.ofList m.name) = false) :
    Header.ofLine? l m.text =
      if m.startsWithStar then none
      else match m.functionTail? with
        | none => some ⟨String.ofList m.name, String.ofList m.params, none⟩
        | some tail =>
          if l.reserves (String.ofList tail) then none
          else some ⟨String.ofList tail, String.ofList m.params, none⟩ := by
  have hne : l ≠ .python := by
    rcases hl with rfl | rfl <;> exact Language.noConfusion
  rw [Header.ofLine?, m.opensNothing_text hne]
  split
  · rfl
  · rw [m.ofShapes?_text hl]
    cases htail : m.functionTail? with
    | none =>
      simp [hname, isEmpty_of_isName m.isName_name]
    | some tail =>
      have hne : tail ≠ [] := m.functionTail?_ne_nil htail
      cases hreserved : l.reserves (String.ofList tail) <;> simp [hreserved, hne]

/-- A method without modifiers and with one parameter. -/
def plainMethod (isGenerator : Bool) (name : List Char)
    (hname : isName isScriptStart isDollarWord name = true) : MethodLine where
  indent := [' ', ' ']
  modifiers := []
  isGenerator := isGenerator
  name := name
  gap := []
  params := ['x']
  space := [' ']
  trailing := []
  indent_blank := by decide
  modifiers_known := by simp
  modifiers_gap := by simp
  isName_name := hname
  gap_blank := allBlank_nil
  params_flat := by simp
  space_blank := by decide
  trailing_blank := allBlank_nil

/-- The name of a method may be a modifier. -/
theorem header_of_method_line_get :
    Language.typescript.reserves "get" = false
      ∧ Header.ofLine? .typescript (plainMethod false "get".toList (by decide)).text
        = some ⟨"get", "x", none⟩ := by
  have hname : Language.typescript.reserves "get" = false := by decide
  exact ⟨hname, header_of_method_line (.inr rfl) (plainMethod false "get".toList (by decide)) hname⟩

/-- `functionality(x)` is read as a function `ality`, and the generator `*items(x)` not at all. -/
theorem method_lines_misread :
    Language.javascript.reserves "functionality" = false
      ∧ Header.ofLine? .javascript (plainMethod false "functionality".toList (by decide)).text
        = some ⟨"ality", "x", none⟩
      ∧ Language.javascript.reserves "items" = false
      ∧ Header.ofLine? .javascript (plainMethod true "items".toList (by decide)).text = none := by
  decide +kernel

end Marginalia
