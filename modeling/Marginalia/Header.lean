import Marginalia.Header.Shapes
import Marginalia.Header.Words
import Marginalia.Text.Lines

/-!
Definition lines. A header is what a line says when it opens a definition: a name, the text of the
parameters and, where the line itself tells, the scope. Blank lines, comment lines and lines that
end in a semicolon open nothing.
-/

namespace Marginalia

open Text

/-- What a definition line says. -/
structure Header where
  name : String
  params : String
  /-- The scope that the line itself names: a receiver, or the qualifier of the name. -/
  owner : Option String
  deriving DecidableEq, Repr

/-- A line that is a comment, or looks like one, from its first visible character on. -/
def isCommentLine (l : Language) (line : Line) : Bool :=
  let visible := trimStart line
  match l with
  | .python => ['#'].isPrefixOf visible
  | _ =>
    ['/', '/'].isPrefixOf visible || ['/', '*'].isPrefixOf visible || ['*'].isPrefixOf visible
      || (['#'].isPrefixOf visible && !(['#', '['].isPrefixOf visible))

/-- A line that ends in a semicolon declares something without defining it. -/
def isDeclaration (line : Line) : Bool := (trimEnd line).getLast? == some ';'

/-- A header from two groups of a match. -/
def Header.ofGroups (found : Captures) (name params : Nat) (owner : Option String) : Header :=
  ⟨found.get name, found.get params, owner⟩

/-- Cuts a qualified name at its last pair of colons. -/
def lastQualifier? (text : List Char) : Option (List Char × List Char) :=
  let rec scan : (seen rest : List Char) → Option (List Char × List Char)
    | seen, ':' :: ':' :: before => some (before.reverse, seen)
    | seen, c :: before => scan (c :: seen) before
    | _, [] => none
  scan [] text.reverse

/-- The name of a C++ definition and the innermost scope that qualifies it. -/
def Header.ofQualified (qualified params : String) : Header :=
  match lastQualifier? qualified.toList with
  | none => ⟨qualified, params, none⟩
  | some (scope, name) =>
    let innermost := ((lastQualifier? scope).map (·.2)).getD scope
    ⟨String.ofList name, params, some (String.ofList innermost)⟩

/-- The header of a line by the shapes of its language. -/
def Header.ofShapes? (l : Language) (line : Line) : Option Header :=
  match l with
  | .python => (Shape.pythonDefinition.captures? line).map (ofGroups · 1 2 none)
  | .java =>
    match Shape.javaMethod.captures? line with
    | none => none
    | some found =>
      -- a modifier in the place of the return type: the line is a constructor
      if javaModifiers.contains (found.get 1) || Language.java.reserves (found.get 1) then none
      else some (ofGroups found 2 3 none)
  | .javascript | .typescript =>
    ([Shape.scriptFunction, Shape.scriptArrow, Shape.scriptMethod].findSome?
      (·.captures? line)).map (ofGroups · 1 2 none)
  | .go => (Shape.goFunction.captures? line).map fun found =>
      ofGroups found 2 3 ((found.get? 1).map String.ofList)
  | .cpp => (Shape.cppFunction.captures? line).map fun found =>
      ofQualified (found.get 1) (found.get 2)
  | .rust => (Shape.rustFunction.captures? line).map (ofGroups · 1 2 none)

/-- The line cannot open a definition, whatever its shape. -/
def opensNothing (l : Language) (line : Line) : Bool :=
  allBlank line || isCommentLine l line || (l.usesBraces && isDeclaration line)

/-- What a line says if it opens a definition. -/
def Header.ofLine? (l : Language) (line : Line) : Option Header :=
  if opensNothing l line then none
  else (Header.ofShapes? l line).filter fun h => !h.name.isEmpty && !l.reserves h.name

/-- The shape of the lines that open a scope, where the language has any. -/
def scopeShape? : Language → Option Pattern
  | .python => some Shape.pythonClass
  | .java => some Shape.javaType
  | .javascript | .typescript => some Shape.scriptClass
  | .cpp => some Shape.cppScope
  | .rust => some Shape.rustScope
  | .go => none

/-- The scope that a line opens: a class, a block of methods, a module. -/
def scopeOfLine? (l : Language) (line : Line) : Option String :=
  if isCommentLine l line || (l.usesBraces && isDeclaration line) then none
  else ((scopeShape? l).bind (·.captures? line)).map (·.get 1)

theorem Header.ofLine?_eq_none_of_blank {l : Language} {line : Line} (h : allBlank line = true) :
    Header.ofLine? l line = none := by
  simp [ofLine?, opensNothing, h]

theorem Header.ofLine?_eq_none_of_comment {l : Language} {line : Line}
    (h : isCommentLine l line = true) : Header.ofLine? l line = none := by
  simp [ofLine?, opensNothing, h]

/-- A definition is never named by a reserved word. -/
theorem Header.not_reserves_of_ofLine? {l : Language} {line : Line} {h : Header}
    (hl : Header.ofLine? l line = some h) : l.reserves h.name = false := by
  unfold ofLine? at hl
  split at hl
  · exact absurd hl (by simp)
  · have := (Option.filter_eq_some_iff.mp hl).2
    simp at this
    exact this.2

end Marginalia
