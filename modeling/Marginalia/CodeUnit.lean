import Marginalia.Annotation
import Marginalia.SourceLanguage
import Marginalia.LineRange
import Marginalia.Text.Search
import Marginalia.Verdict

/-!
Units: the definitions that a source file is made of. A unit is known by an identifier of four
parts, its file, its scope, its name and the line it starts on, so two units of one file differ as
soon as they start on different lines.
-/

namespace Marginalia

/-- Why a text cannot be cut into units. -/
inductive SegmentError where
  | unsupportedLanguage (name : String)
  | invalidUnit (reason : String)
  | invalidRange (range : LineRange)
  | invalidOptions (reason : String)
  deriving DecidableEq, Repr

/-- The wording of a segmentation error. -/
def SegmentError.message : SegmentError → String
  | unsupportedLanguage name => s!"Unsupported language: {name}"
  | invalidUnit reason => s!"Invalid unit: {reason}"
  | invalidRange r => s!"Invalid line range: start={r.start}, end={r.stop}"
  | invalidOptions reason => s!"Invalid configuration: {reason}"

/-- The identifier of a unit. -/
structure UnitId where
  text : String
  deriving DecidableEq, Repr, Inhabited

instance : Json.Writable UnitId := ⟨fun id => .string id.text⟩
instance : Json.Readable UnitId := ⟨fun v => (Json.ofJson? v).map UnitId.mk⟩

/-- The scope of a unit that stands in none. -/
def moduleScope : String := "module"

/-- The identifier of the unit that starts on a line, counted from one. -/
def UnitId.compose (file : String) (scope : Option String) (name : String) (line : Nat) : UnitId :=
  ⟨s!"file://{file}::{scope.getD moduleScope}::{name}::line{line}"⟩

/-- What is known of a unit before it is checked. -/
structure UnitDraft where
  file : String
  language : Language
  scope : Option String
  name : String
  params : String
  range : LineRange
  body : String

/-- A definition of a source file, with what has been found out about it. -/
structure CodeUnit where
  id : UnitId
  file : String
  language : Language
  scope : Option String
  name : String
  /-- The name with the parameters in parentheses. -/
  signature : String
  range : LineRange
  body : String
  /-- The names that the body calls. -/
  callsOut : List String
  /-- The units that call this one. -/
  callsIn : List UnitId
  verdict : Option Verdict
  annotation : Option Annotation
  indexId : Option String
  deriving DecidableEq, Repr

namespace CodeUnit

open Text

/-- Checks a draft: a unit has a file, a name and a line. -/
def ofDraft (d : UnitDraft) : Except SegmentError CodeUnit :=
  if isBlankString d.file then .error (.invalidUnit "file path is empty")
  else if isBlankString d.name then
    .error (.invalidUnit s!"unit at {d.file}:{d.range.firstLine} has no name")
  else if d.range.isEmpty then .error (.invalidRange d.range)
  else
    let scope := d.scope.filter fun s => !isBlankString s
    .ok {
      id := .compose d.file scope d.name d.range.firstLine
      file := d.file
      language := d.language
      scope := scope
      name := d.name
      signature := d.name ++ "(" ++ trimmed d.params ++ ")"
      range := d.range
      body := d.body
      callsOut := []
      callsIn := []
      verdict := none
      annotation := none
      indexId := none }

/-- The parameters between the parentheses of the signature. -/
def params (u : CodeUnit) : String :=
  match (dropFront? (u.name.toList ++ ['(']) u.signature.toList).bind (dropEnd? [')']) with
  | some inner => String.ofList inner
  | none => ""

/-- The verdict says that the unit can be reused. -/
def isReusable (u : CodeUnit) : Bool := (u.verdict.map (·.reusable)).getD false

/-- Adds a caller that is not yet known. -/
def addCaller (u : CodeUnit) (caller : UnitId) : CodeUnit :=
  if caller ∈ u.callsIn then u else { u with callsIn := u.callsIn ++ [caller] }

/-- A new caller comes last; a known one changes nothing. -/
theorem callsIn_addCaller (u : CodeUnit) (caller : UnitId) :
    (u.addCaller caller).callsIn
      = if caller ∈ u.callsIn then u.callsIn else u.callsIn ++ [caller] := by
  unfold addCaller
  split <;> rfl

open Json

instance : Writable CodeUnit :=
  ⟨fun u => ofFields [
    ("id", toJson u.id), ("file_path", toJson u.file), ("language", toJson u.language),
    ("enclosing_scope", toJson u.scope), ("name", toJson u.name),
    ("signature", toJson u.signature), ("line_range", toJson u.range),
    ("body_text", toJson u.body), ("calls_out", toJson u.callsOut),
    ("calls_in", toJson u.callsIn), ("classification", toJson u.verdict),
    ("annotation", toJson u.annotation), ("index_id", toJson u.indexId)]⟩

instance : Readable CodeUnit :=
  ⟨fun v => do
    let r ← record? ["id", "file_path", "language", "enclosing_scope", "name", "signature",
      "line_range", "body_text", "calls_out", "calls_in", "classification", "annotation",
      "index_id"] v
    return {
      id := ← r.field "id"
      file := ← r.field "file_path"
      language := ← r.field "language"
      scope := ← r.optional "enclosing_scope"
      name := ← r.field "name"
      signature := ← r.field "signature"
      range := ← r.field "line_range"
      body := ← r.field "body_text"
      callsOut := ← r.field "calls_out"
      callsIn := ← r.field "calls_in"
      verdict := ← r.optional "classification"
      annotation := ← r.optional "annotation"
      indexId := ← r.optional "index_id" }⟩

end CodeUnit

end Marginalia
