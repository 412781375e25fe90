import Marginalia.Proofs.Header.Tokens

/-!
The shapes of a script on words. The words in front of a function, a variable or a method are taken
only where a keyword stands as a word of its own, with white space and more than a parenthesis
behind it. The keyword `function` alone needs nothing behind it, and takes the front of a name too.
-/

namespace Marginalia

open Pattern Shape Text

/-- A character that opens an identifier of a script. -/
def isScriptStart (c : Char) : Bool := isNameStart c || c == '$'

/-- The words in front of a method. -/
def methodModifiers : List String :=
  ["public", "private", "protected", "static", "async", "readonly", "override", "get", "set"]

/-! ### The name and the parameters -/

theorem isDollarWord_of_isScriptStart {c : Char} (h : isScriptStart c = true) :
    isDollarWord c = true := by
  rcases Bool.or_eq_true_iff.1 h with hstart | hdollar
  · rw [isDollarWord, isWord_of_isNameStart hstart, Bool.true_or]
  · rw [isDollarWord, hdollar, Bool.or_true]

/-- Parameters between parentheses. -/
def parentheses : List Pattern := [mark '(', group 2 flatParams, mark ')']

/-- What stands behind a name: perhaps type parameters, and parameters. -/
def behindName : List Pattern := gap :: optional angled :: gap :: parentheses

/-- A name with what stands behind it. -/
def namePattern : List Pattern := group 1 dollarIdent :: behindName

section Signature

variable {name blanks params s : List Char} {found : Captures} {next : Continuation}

theorem startsOutside_parenthesis (hblanks : allBlank blanks = true) :
    StartsOutside isDollarWord (blanks ++ '(' :: s) :=
  startsOutside_blank_append hblanks (startsOutside_cons.2 (by decide))

theorem run_parentheses (hparams : ∀ c ∈ params, c ≠ '(' ∧ c ≠ ')') :
    run (all parentheses) ('(' :: (params ++ ')' :: s)) found next
      = next s ((2, params ++ ')' :: s, ')' :: s) :: found) := by
  have hflat : ∀ c ∈ params, (c != '(' && c != ')') = true := by
    intro c hc
    simp [hparams c hc]
  have hrejects : Rejects (fun c => c != '(' && c != ')') (run (all [mark ')']) · · next) :=
    rejects_mark rfl
  rw [parentheses, run_all_cons, mark, run_one_cons rfl, run_all_cons, run_group, flatParams,
    run_span_of_rejects (hrejects.group 2 _), run_whole hflat (by simp)]
  exact run_one_cons rfl

/-- What stands behind a name cannot go on with it. -/
theorem rejects_behindName : Rejects isDollarWord (run (all behindName) · · next) := by
  have hgap : ∀ {next : Continuation}, Rejects isDollarWord next →
      Rejects isDollarWord (run gap · · next) :=
    rejects_whole fun _ => isBlank_of_isDollarWord
  have hparentheses : Rejects isDollarWord (run (all parentheses) · · next) :=
    rejects_all_cons (rejects_mark (by decide))
  have hangled : ∀ {next : Continuation}, Rejects isDollarWord (run angled · · next) :=
    rejects_all_cons (rejects_mark (by decide))
  exact rejects_all_cons (hgap (rejects_all_cons (rejects_optional hangled
    (rejects_all_cons (hgap hparentheses)))))

/-- Only a character that opens an identifier opens a name. -/
theorem rejects_name {ending : List Pattern} :
    Rejects (!isScriptStart ·) (run (all (group 1 dollarIdent :: ending)) · · next) := by
  refine rejects_all_cons fun c rest found hc => ?_
  have hstart : (isNameStart c || c == '$') = false := by simpa [isScriptStart] using hc
  simp only [dollarIdent, run, hstart, Bool.false_eq_true, if_false]

theorem run_namePattern (hname : isName isScriptStart isDollarWord name = true)
    (hblanks : allBlank blanks = true) (hparams : ∀ c ∈ params, c ≠ '(' ∧ c ≠ ')') :
    run (all namePattern) (name ++ (blanks ++ '(' :: (params ++ ')' :: s))) found next
      = next s ((2, params ++ ')' :: s, ')' :: s)
          :: (1, name ++ (blanks ++ '(' :: (params ++ ')' :: s)),
              blanks ++ '(' :: (params ++ ')' :: s)) :: found) := by
  have hout := startsOutside_parenthesis (s := params ++ ')' :: s) hblanks
  have hident : dollarIdent = seq (one isScriptStart) (span isDollarWord) := rfl
  have hvisible : isBlank '(' = false := by decide
  rw [namePattern, run_all_cons, run_group, hident,
    run_name hname hout (rejects_behindName.group 1 _)]
  simp only [behindName, run_all_cons]
  rw [run_gap hblanks (startsOutside_cons.2 hvisible), run_optional_of_none rfl,
    run_gap_of_visible hvisible]
  exact run_parentheses hparams

end Signature

/-! ### Words in front of a name -/

section Words

variable {p : Char → Bool} {kw w : String} {name blanks s : List Char} {found : Captures}
  {next : Continuation}

theorem isWordText_modifier (hw : w ∈ methodModifiers) : isWordText w.toList = true :=
  (show ∀ w ∈ methodModifiers, isWordText w.toList = true by decide) w hw

theorem exists_modifier_start (hw : w ∈ methodModifiers) :
    ∃ c rest, w.toList = c :: rest ∧ isScriptStart c = true := by
  have hstarts : ∀ w ∈ methodModifiers, w.toList.head?.any isScriptStart = true := by decide
  obtain ⟨c, hc, hstart⟩ := (Option.any_eq_true _ _).1 (hstarts w hw)
  obtain ⟨rest, hrest⟩ := List.head?_eq_some_iff.1 hc
  exact ⟨c, rest, hrest, hstart⟩

/-- Where the parenthesis stands behind a name, the name is no keyword in front of another one. -/
theorem run_gap1_parenthesis (hblanks : allBlank blanks = true)
    (hnext : next ('(' :: s) found = none) : run gap1 (blanks ++ '(' :: s) found next = none :=
  run_gap1_eq_none hblanks (startsOutside_cons.2 (by decide)) hnext

/-- Keywords that may stand in front of a definition, one behind the other. -/
def optionalWords (kws : List String) : List Pattern := kws.map fun kw => optional (spaced kw)

theorem optionalWords_cons (kw : String) (kws : List String) :
    optionalWords (kw :: kws) = optional (spaced kw) :: optionalWords kws := rfl

variable {kws : List String} {ps : List Pattern}

theorem rejects_optionalWords (hkws : ∀ kw ∈ kws, kw.toList ≠ [] ∧ StartsOutside p kw.toList)
    (hps : Rejects p (run (all ps) · · next)) :
    Rejects p (run (all (optionalWords kws ++ ps)) · · next) := by
  induction kws with
  | nil => exact hps
  | cons kw kws ih =>
    obtain ⟨⟨hne, hkw⟩, hkws⟩ := List.forall_mem_cons.1 hkws
    exact rejects_all_cons (rejects_optional (rejects_text hne hkw) (ih hkws))

/-- Keywords are left out in front of a word that is none of them, or has nothing behind it but
what cannot follow them. -/
theorem run_optionalWords {w : List Char}
    (hkws : ∀ kw ∈ kws, kw.toList ≠ [] ∧ StartsOutside p kw.toList
      ∧ isWordText kw.toList = true)
    (hw : isWordText w = true) (hs : StartsOutside isDollarWord s)
    (hdead : ∀ kw ∈ kws, w = kw.toList → ∀ {next : Continuation}, Rejects p next →
      run gap1 s found next = none)
    (hps : Rejects p (run (all ps) · · next)) :
    run (all (optionalWords kws ++ ps)) (w ++ s) found next
      = run (all ps) (w ++ s) found next := by
  induction kws with
  | nil => rfl
  | cons kw kws ih =>
    obtain ⟨⟨-, -, hkw⟩, hkws⟩ := List.forall_mem_cons.1 hkws
    obtain ⟨hfirst, hdead⟩ := List.forall_mem_cons.1 hdead
    have hrejects : Rejects p (run (all (optionalWords kws ++ ps)) · · next) :=
      rejects_optionalWords (fun kw hmem => ⟨(hkws kw hmem).1, (hkws kw hmem).2.1⟩) hps
    rw [optionalWords_cons, List.cons_append, run_all_cons,
      run_optional_spaced hkw hw hs fun h => hfirst h hrejects]
    exact ih hkws hdead

/-! ### Functions -/

/-- A function from its keyword on. -/
def functionPattern : List Pattern :=
  word "function" :: gap :: optional (mark '*') :: gap :: namePattern

/-- The words that may stand in front of the keyword. -/
def functionWords : List Pattern := optionalWords ["export", "default", "async"]

theorem rejects_functionPattern :
    Rejects (!isScriptStart ·) (run (all functionPattern) · · next) :=
  rejects_all_cons (rejects_text (by decide) (startsOutside_cons.2 (by decide)))

theorem rejects_functionWords :
    Rejects (!isScriptStart ·) (run (all (functionWords ++ functionPattern)) · · next) :=
  rejects_optionalWords (by decide) rejects_functionPattern

/-- No keyword in front of `function` is a name with parameters. -/
theorem run_functionWords_of_name (hname : isWordText name = true)
    (hblanks : allBlank blanks = true) :
    run (all (functionWords ++ functionPattern)) (name ++ (blanks ++ '(' :: s)) found next
      = run (all functionPattern) (name ++ (blanks ++ '(' :: s)) found next :=
  run_optionalWords (by decide) hname (startsOutside_parenthesis hblanks)
    (fun _ _ _ _ h => run_gap1_parenthesis hblanks (h '(' s found (by decide)))
    rejects_functionPattern

theorem run_functionPattern_of_modifier (hw : w ∈ methodModifiers)
    (hs : StartsOutside isDollarWord s) :
    run (all functionPattern) (w.toList ++ s) found next = none := by
  have hfront : ∀ w ∈ methodModifiers, dropFront? "function".toList w.toList = none := by decide
  rw [functionPattern, run_all_cons, run_word (by decide) hs, hfront w hw, Option.bind_none]

/-- Of the modifiers only `async` leads to the keyword of a function. -/
theorem run_functionWords_of_modifier (hw : w ∈ methodModifiers) (hblanks : IsGap blanks)
    (hs : StartsOutside isBlank s) :
    run (all (functionWords ++ functionPattern)) (w.toList ++ (blanks ++ s)) found next
      = if w = "async" then run (all functionPattern) s found next else none := by
  have hchars := isWordText_modifier hw
  have hout : StartsOutside isDollarWord (blanks ++ s) := hblanks.startsOutside
  have hother : ∀ w ∈ methodModifiers, ∀ kw ∈ ["export", "default"], w.toList ≠ kw.toList := by
    decide
  have hwords : functionWords ++ functionPattern
      = optionalWords ["export", "default"] ++ (optionalWords ["async"] ++ functionPattern) := rfl
  have hasync : Rejects (!isScriptStart ·)
      (run (all (optionalWords ["async"] ++ functionPattern)) · · next) :=
    rejects_optionalWords (by decide) rejects_functionPattern
  rw [hwords, run_optionalWords (by decide) hchars hout
    (fun kw hkw h => absurd h (hother w hw kw hkw)) hasync]
  rw [optionalWords_cons, List.cons_append, run_all_cons, run_optional,
    run_spaced (by decide) hchars hblanks hs]
  simp only [optionalWords, List.map_nil, List.nil_append, run_functionPattern_of_modifier hw hout,
    Option.or_none, String.toList_inj]

/-- Behind the keyword stands a name, perhaps behind a star. -/
theorem run_behind_function (hblanks : allBlank blanks = true) {c : Char} (hc : isBlank c = false)
    (hstar : c ≠ '*') :
    run (all (gap :: optional (mark '*') :: gap :: namePattern)) (blanks ++ c :: s) found next
      = run (all namePattern) (c :: s) found next := by
  have hmark : ∀ next, run (mark '*') (c :: s) found next = none := fun next =>
    rejects_mark (p := (· != '*')) rfl c s found (by simpa using hstar)
  rw [run_all_cons, run_gap hblanks (startsOutside_cons.2 hc), run_all_cons,
    run_optional_of_none (hmark _), run_all_cons, run_gap_of_visible hc]

/-- The keyword takes the front of a name, and what is left of the name is the name of a
function. -/
theorem run_functionPattern_of_name (hname : isWordText name = true)
    (hblanks : allBlank blanks = true) :
    run (all functionPattern) (name ++ (blanks ++ '(' :: s)) found next
      = ((dropFront? "function".toList name).filter fun tail => tail.head?.any isScriptStart).bind
          fun tail => run (all namePattern) (tail ++ (blanks ++ '(' :: s)) found next := by
  rw [functionPattern, run_all_cons, run_word (by decide) (startsOutside_parenthesis hblanks)]
  cases hfront : dropFront? "function".toList name with
  | none => rfl
  | some tail =>
    obtain rfl := dropFront?_eq_some_iff.1 hfront
    rw [Option.bind_some]
    cases tail with
    | nil =>
      -- the keyword is all of the name, so that the parenthesis stands where a name should
      rw [List.nil_append, run_behind_function hblanks (by decide) (by decide)]
      exact rejects_name '(' s found (by decide)
    | cons c tail =>
      have hc : isDollarWord c = true := isWordText_iff.1 hname c (by simp)
      have hstar : c ≠ '*' := by
        rintro rfl
        exact absurd hc (by decide)
      have hblank : isBlank c = false := isBlank_of_isDollarWord hc
      rw [List.cons_append]
      refine (@run_behind_function [] _ found next allBlank_nil c hblank hstar).trans ?_
      -- a digit, say, continues a name and opens none
      cases hstart : isScriptStart c with
      | true => simp [Option.filter, hstart]
      | false =>
        have hnone : run (all namePattern) (c :: (tail ++ (blanks ++ '(' :: s))) found next
            = none := rejects_name c _ found (by simp [hstart])
        simp [Option.filter, hstart, hnone]

/-! ### Variables -/

/-- A variable from its keyword on, up to its name and with anything behind it. -/
def variablePattern (ending : List Pattern) : List Pattern :=
  anyOf ["const", "let", "var"] :: gap1 :: group 1 dollarIdent :: ending

variable {ending : List Pattern}

theorem rejects_variablePattern :
    Rejects (!isScriptStart ·) (run (all (variablePattern ending)) · · next) :=
  rejects_all_cons (rejects_anyOf (by decide))

theorem rejects_exported : Rejects (!isScriptStart ·)
    (run (all (optionalWords ["export"] ++ variablePattern ending)) · · next) :=
  rejects_optionalWords (by decide) rejects_variablePattern

/-- A variable has a name behind its keyword, where a method has its parameters. -/
theorem run_variable_of_name (hname : isWordText name = true)
    (hblanks : allBlank blanks = true) :
    run (all (optionalWords ["export"] ++ variablePattern ending))
      (name ++ (blanks ++ '(' :: s)) found next = none := by
  have hout := startsOutside_parenthesis (s := s) hblanks
  have hdead : ∀ {next : Continuation}, Rejects (!isScriptStart ·) next →
      run gap1 (blanks ++ '(' :: s) found next = none := fun h =>
    run_gap1_parenthesis hblanks (h '(' s found (by decide))
  rw [run_optionalWords (by decide) hname hout (fun _ _ _ _ h => hdead h) rejects_variablePattern,
    variablePattern, run_all_cons, run_anyOf_of_rejects (by decide) hname hout
      (rejects_all_cons rejects_gap1), run_all_cons, hdead rejects_name, ite_self]

theorem run_variable_of_modifier (hw : w ∈ methodModifiers) (hs : StartsOutside isDollarWord s) :
    run (all (optionalWords ["export"] ++ variablePattern ending)) (w.toList ++ s) found next
      = none := by
  have hchars := isWordText_modifier hw
  have hother : ∀ w ∈ methodModifiers, ∀ kw ∈ ["export"], w.toList ≠ kw.toList := by decide
  have hkeyword : ∀ w ∈ methodModifiers, w.toList ∉ ["const", "let", "var"].map String.toList := by
    decide
  rw [run_optionalWords (by decide) hchars hs (fun kw hkw h => absurd h (hother w hw kw hkw))
      rejects_variablePattern,
    variablePattern, run_all_cons, run_anyOf_of_rejects (by decide) hchars hs
      (rejects_all_cons rejects_gap1), if_neg (hkeyword w hw)]

/-! ### Modifiers -/

/-- Modifiers as they stand on a line. -/
def modifierText (modifiers : List (String × List Char)) : List Char :=
  modifiers.flatMap fun (word, blanks) => word.toList ++ blanks

theorem modifierText_cons (m : String × List Char) (ms : List (String × List Char)) :
    modifierText (m :: ms) = m.1.toList ++ (m.2 ++ modifierText ms) := by
  simp [modifierText]

/-- One modifier of a method and the white space behind it. -/
def modifierPattern : Pattern := seq (anyOf methodModifiers) gap1

theorem rejects_modifierPattern : Rejects (!isScriptStart ·) (run modifierPattern · · next) :=
  rejects_anyOf (by decide)

/-- A modifier takes a modifier of the line. -/
theorem run_modifierPattern (hw : w ∈ methodModifiers) (hblanks : IsGap blanks)
    (hs : StartsOutside isBlank s) :
    run modifierPattern (w.toList ++ (blanks ++ s)) found next = next s found := by
  rw [modifierPattern, run_seq, run_anyOf_of_rejects (by decide) (isWordText_modifier hw)
    hblanks.startsOutside rejects_gap1, if_pos (List.mem_map_of_mem hw), run_gap1 hblanks hs]

/-- A name with parameters is no modifier, though it may be the same word. -/
theorem run_modifierPattern_of_name (hname : isWordText name = true)
    (hblanks : allBlank blanks = true) (hnext : next ('(' :: s) found = none) :
    run modifierPattern (name ++ (blanks ++ '(' :: s)) found next = none := by
  rw [modifierPattern, run_seq, run_anyOf_of_rejects (by decide) hname
    (startsOutside_parenthesis hblanks) rejects_gap1, run_gap1_parenthesis hblanks hnext, ite_self]

theorem modifierText_visible {ms : List (String × List Char)}
    (hms : ∀ m ∈ ms, m.1 ∈ methodModifiers) (hs : StartsOutside isBlank s) :
    StartsOutside isBlank (modifierText ms ++ s) := by
  cases ms with
  | nil => exact hs
  | cons m ms =>
    obtain ⟨c, cs, hcs, hstart⟩ := exists_modifier_start (hms m List.mem_cons_self)
    rw [modifierText_cons, hcs]
    exact startsOutside_cons.2 (isBlank_of_isDollarWord (isDollarWord_of_isScriptStart hstart))

/-- The modifiers of a line are taken one by one, up to a place where nothing more can be. -/
theorem repeatStep_modifiers {r : Captures} {ms : List (String × List Char)}
    (hms : ∀ m ∈ ms, m.1 ∈ methodModifiers) (hgaps : ∀ m ∈ ms, IsGap m.2)
    (hs : StartsOutside isBlank s)
    (hstop : ∀ fuel, repeatStep (run modifierPattern) fuel s found next = some r) {fuel : Nat}
    (hfuel : ms.length ≤ fuel) :
    repeatStep (run modifierPattern) fuel (modifierText ms ++ s) found next = some r := by
  induction ms generalizing fuel with
  | nil => exact hstop fuel
  | cons m ms ih =>
    obtain ⟨n, rfl⟩ : ∃ n, fuel = n + 1 := ⟨fuel - 1, by rw [List.length_cons] at hfuel; omega⟩
    obtain ⟨hm, hms⟩ := List.forall_mem_cons.1 hms
    obtain ⟨hgap, hgaps⟩ := List.forall_mem_cons.1 hgaps
    have hrest := ih hms hgaps (Nat.le_of_succ_le_succ hfuel)
    rw [modifierText_cons, List.append_assoc, List.append_assoc, repeatStep,
      run_modifierPattern hm hgap (modifierText_visible hms hs), hrest]

theorem length_le_modifierText {ms : List (String × List Char)} (hgaps : ∀ m ∈ ms, IsGap m.2) :
    ms.length ≤ (modifierText ms).length := by
  induction ms with
  | nil => exact Nat.zero_le _
  | cons m ms ih =>
    obtain ⟨hgap, hgaps⟩ := List.forall_mem_cons.1 hgaps
    have hpos := List.length_pos_of_ne_nil hgap.nonempty
    have hms := ih hgaps
    rw [modifierText_cons, List.length_append, List.length_append, List.length_cons]
    omega

/-! ### Methods -/

/-- The end of a method header: perhaps a type, and the brace at the end of the line. -/
def bracePattern : List Pattern :=
  [gap, optional (seq (mark ':') (span1 fun c => c != '\x7b' && c != ';')), mark '\x7b', gap, atEnd]

theorem run_bracePattern (hblanks : allBlank blanks = true) (hs : allBlank s = true) :
    run (all bracePattern) (blanks ++ '\x7b' :: s) found (fun _ found => some found)
      = some found := by
  have hend : run gap s found (fun s' found' =>
      run (all [atEnd]) s' found' fun _ found => some found) = some found := by
    rw [← List.append_nil s, run_gap hs (startsOutside_nil _)]
    rfl
  rw [bracePattern, run_all_cons, run_gap hblanks (startsOutside_cons.2 (by decide)), run_all_cons,
    run_optional_of_none rfl, run_all_cons, mark, run_one_cons rfl, run_all_cons, hend]

/-- A method behind its modifiers. -/
def methodPattern : List Pattern := optional (mark '*') :: (namePattern ++ bracePattern)

theorem run_methodPattern_parenthesis :
    run (all methodPattern) ('(' :: s) found next = none := by
  rw [methodPattern, run_all_cons, run_optional_of_none rfl, namePattern]
  exact rejects_name '(' s found (by decide)

end Words

end Marginalia
