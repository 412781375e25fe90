import Marginalia.Segment.CalledNames
import Marginalia.CodeUnit
import Marginalia.Header
import Marginalia.Segment.Braces

/-!
Cutting a source text into units. A unit starts at a definition line and ends where its braces
balance or, in a language of indentation and wherever they never do, before the first line that is
indented no deeper than the start. Lines inside a unit are not looked at for further definitions, so
what is nested stays part of the unit around it.
-/

namespace Marginalia

open Text

/-- How texts are cut. -/
structure SegmentOptions where
  /-- Braces end the units of the languages that have them. -/
  braceMatching : Bool := true
  /-- How many lines behind the definition line the first brace may stand. -/
  braceLookahead : Nat := 2
  /-- Names with an underscore in front are not recorded as calls. -/
  skipPrivateCalls : Bool := true
  deriving DecidableEq, Repr, Inhabited

namespace SegmentOptions

/-- Options for indentation alone. -/
def indentationOnly : SegmentOptions := { braceMatching := false }

/-- The furthest that the look-ahead may reach. -/
def maxLookahead : Nat := 16

/-- Options that can be used: with braces, the look-ahead is bounded. -/
def check (o : SegmentOptions) : Except SegmentError Unit :=
  if o.braceMatching && o.braceLookahead > maxLookahead then
    .error (.invalidOptions s!"brace_lookahead ({o.braceLookahead}) cannot exceed {maxLookahead}")
  else .ok ()

open Json in
instance : Writable SegmentOptions :=
  ⟨fun o => ofFields [
    ("brace_matching", toJson o.braceMatching), ("brace_lookahead", toJson o.braceLookahead),
    ("skip_private_calls", toJson o.skipPrivateCalls)]⟩

open Json in
instance : Readable SegmentOptions :=
  ⟨fun v => do
    let r ← record? ["brace_matching", "brace_lookahead", "skip_private_calls"] v
    let standard : SegmentOptions := {}
    return {
      braceMatching := ← r.fieldOr "brace_matching" standard.braceMatching
      braceLookahead := ← r.fieldOr "brace_lookahead" standard.braceLookahead
      skipPrivateCalls := ← r.fieldOr "skip_private_calls" standard.skipPrivateCalls }⟩

end SegmentOptions

/-- The depth of a line: how much white space it starts with. -/
def indentWidth (line : Line) : Nat := (line.takeWhile isBlank).length

/-- A scope that has been entered and not yet left. -/
structure OpenScope where
  indent : Nat
  name : String
  deriving DecidableEq, Repr

/-- The scopes, innermost first, that are still open at a line. Where indentation rules, a scope
ends at a line no deeper than its own; where braces rule, only a line that starts with a closing
brace ends scopes, all the deeper ones and one at its own depth. -/
def closeScopes (l : Language) (line : Line) (scopes : List OpenScope) : List OpenScope :=
  let depth := indentWidth line
  if !l.usesBraces then scopes.dropWhile (·.indent ≥ depth)
  else if (trimStart line).head? != some '\x7d' then scopes
  else
    match scopes.dropWhile (·.indent > depth) with
    | innermost :: outer => if innermost.indent = depth then outer else innermost :: outer
    | [] => []

/-- The line has braces, and closes as many as it opens. -/
def closesItself (line : Line) : Bool :=
  let opened := line.count '\x7b'
  opened > 0 && opened == line.count '\x7d'

/-- The scopes behind a line that opens no unit: it may open a scope that outlasts it. -/
def openScope (l : Language) (line : Line) (scopes : List OpenScope) : List OpenScope :=
  match scopeOfLine? l line with
  | some name =>
    if l.usesBraces && closesItself line then scopes else ⟨indentWidth line, name⟩ :: scopes
  | none => scopes

/-- The scope of a definition: the one its own line names, or else the innermost open one. -/
def scopeOf (h : Header) (scopes : List OpenScope) : Option String :=
  match h.owner with
  | some owner => some owner
  | none => scopes.head?.map (·.name)

/-- A definition named like the type around it. -/
def isConstructor (l : Language) (h : Header) (scope : Option String) : Bool :=
  (l == .java || l == .cpp) && scope == some h.name

/-- The number of lines up to the first visible one that is indented no deeper than `depth`. -/
def indentedLength (depth : Nat) (lines : List Line) : Nat :=
  (lines.takeWhile fun line => allBlank line || indentWidth line > depth).length

/-- The number of lines of the unit that starts with the first of these lines. -/
def unitLength (o : SegmentOptions) (l : Language) (line : Line) (rest : List Line) : Nat :=
  let braced :=
    if o.braceMatching && l.usesBraces then bracedLength l o.braceLookahead 0 0 (line :: rest)
    else none
  braced.getD (1 + indentedLength (indentWidth line) rest)

/-- The unit of a definition line and the lines behind it; a unit without a file or a visible name
is dropped. -/
def unitAt? (o : SegmentOptions) (file : String) (l : Language) (h : Header)
    (scope : Option String) (index : Nat) (lines : List Line) : Option CodeUnit :=
  let body := String.ofList (joinLines lines)
  match CodeUnit.ofDraft {
    file := file, language := l, scope := scope, name := h.name, params := h.params,
    range := ⟨index, index + lines.length⟩, body := body } with
  | .ok unit =>
    some { unit with callsOut := callsOfBody body h.name l o.skipPrivateCalls }
  | .error _ => none

/-- The units of the lines from number `index` on, of which the first `covered` belong to a unit
already found. -/
def unitsFrom (o : SegmentOptions) (file : String) (l : Language) (scopes : List OpenScope)
    (index covered : Nat) : List Line → List CodeUnit
  | [] => []
  | line :: rest =>
    match covered with
    | covered + 1 => unitsFrom o file l scopes (index + 1) covered rest
    | 0 =>
      if allBlank line || isCommentLine l line then
        unitsFrom o file l scopes (index + 1) 0 rest
      else
        let scopes := closeScopes l line scopes
        match Header.ofLine? l line with
        | none => unitsFrom o file l (openScope l line scopes) (index + 1) 0 rest
        | some h =>
          let scope := scopeOf h scopes
          if isConstructor l h scope then unitsFrom o file l scopes (index + 1) 0 rest
          else
            let length := unitLength o l line rest
            (unitAt? o file l h scope index ((line :: rest).take length)).toList
              ++ unitsFrom o file l scopes (index + 1) (length - 1) rest

/-- The units of a text, in the order of their lines. -/
def segment (o : SegmentOptions) (text file : String) (l : Language) : List CodeUnit :=
  unitsFrom o file l [] 0 0 (linesOf text)

/-- A unit has at least its definition line. -/
theorem unitLength_pos (o : SegmentOptions) (l : Language) (line : Line) (rest : List Line) :
    0 < unitLength o l line rest := by
  unfold unitLength
  split
  · cases h : bracedLength l o.braceLookahead 0 0 (line :: rest) with
    | none => simp only [Option.getD_none]; omega
    | some n => simpa using passed_lt_bracedLength h
  · simp only [Option.getD_none]; omega

end Marginalia
