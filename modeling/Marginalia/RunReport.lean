import Marginalia.CodeUnit

/-!
Reports: what a run has done, in numbers, and what went wrong on the way. Nothing of that stops a
run.
-/

namespace Marginalia

/-- The kind of a diagnostic. -/
inductive DiagnosticKind where
  /-- A file could not be read. -/
  | read
  /-- A service failed and the local rule stood in. -/
  | enrich
  /-- An annotated unit got no block. -/
  | skipped
  /-- A text could not be written. -/
  | write
  /-- The index did not take a unit in. -/
  | index
  /-- The call graph could not be built. -/
  | graph
  /-- A file was left alone because the run was asked to stop. -/
  | cancelled
  /-- The work on a file crashed. -/
  | task
  deriving DecidableEq, Repr

namespace DiagnosticKind

/-- All kinds, in the order in which they are listed. -/
def all : List DiagnosticKind := [read, enrich, skipped, write, index, graph, cancelled, task]

/-- The word under which a kind is written down. -/
def name : DiagnosticKind → String
  | read => "read"
  | enrich => "enrich"
  | skipped => "skipped"
  | write => "write"
  | index => "index"
  | graph => "graph"
  | cancelled => "cancelled"
  | task => "task"

/-- The kind with this name. -/
def ofName? (s : String) : Option DiagnosticKind := all.find? (·.name == s)

instance : Json.Writable DiagnosticKind := ⟨fun k => .string k.name⟩
instance : Json.Readable DiagnosticKind := ⟨Json.ofWord? ofName?⟩

end DiagnosticKind

/-- Something that went wrong with a file, or with a unit of it. -/
structure Diagnostic where
  path : String
  unit : Option UnitId
  kind : DiagnosticKind
  message : String
  deriving DecidableEq, Repr

namespace Diagnostic

/-- A diagnostic about a whole file. -/
def ofFile (path : String) (kind : DiagnosticKind) (message : String) : Diagnostic :=
  ⟨path, none, kind, message⟩

/-- A diagnostic about a unit. -/
def ofUnit (path : String) (unit : UnitId) (kind : DiagnosticKind) (message : String) :
    Diagnostic :=
  ⟨path, some unit, kind, message⟩

/-- A diagnostic in one line. -/
def line (d : Diagnostic) : String :=
  let unit := match d.unit with
    | some id => s!" ({id.text})"
    | none => ""
  s!"[{d.kind.name}] {d.path}{unit}: {d.message}"

open Json

instance : Writable Diagnostic :=
  ⟨fun d => ofFields (
    [("path", toJson d.path)] ++ (d.unit.map fun id => ("unit", toJson id)).toList
      ++ [("kind", toJson d.kind), ("message", toJson d.message)])⟩

instance : Readable Diagnostic :=
  ⟨fun v => do
    let r ← record? ["path", "unit", "kind", "message"] v
    return ⟨← r.field "path", ← r.fieldOr "unit" none, ← r.field "kind", ← r.field "message"⟩⟩

end Diagnostic

/-- What a run has done. -/
structure RunReport where
  filesScanned : Nat := 0
  /-- The files with another text than before; in a dry run, those that would have one. -/
  filesChanged : Nat := 0
  units : Nat := 0
  reusable : Nat := 0
  annotationsInserted : Nat := 0
  blocksStripped : Nat := 0
  callEdges : Nat := 0
  /-- The verdicts that a service gave. -/
  modelVerdicts : Nat := 0
  /-- The verdicts of the local rule. -/
  fallbackVerdicts : Nat := 0
  quotaUsed : Nat := 0
  indexed : Nat := 0
  /-- The number of files of each language, sorted by its name. -/
  languages : List (String × Nat) := []
  milliseconds : Nat := 0
  cancelled : Bool := false
  diagnostics : List Diagnostic := []
  deriving DecidableEq, Repr

namespace RunReport

/-- Counts a file. -/
def addFile (r : RunReport) (l : Language) : RunReport :=
  let files := (r.languages.lookup l.name).getD 0
  { r with
    filesScanned := r.filesScanned + 1
    languages := Json.insertKey l.name (files + 1) r.languages }

/-- Counts a verdict. -/
def addVerdict (r : RunReport) (s : Source) : RunReport :=
  if s.isFallback then { r with fallbackVerdicts := r.fallbackVerdicts + 1 }
  else { r with modelVerdicts := r.modelVerdicts + 1 }

/-- Adds what went wrong. -/
def addDiagnostics (r : RunReport) (ds : List Diagnostic) : RunReport :=
  { r with diagnostics := r.diagnostics ++ ds }

/-- The number of diagnostics of a kind. -/
def countOf (r : RunReport) (k : DiagnosticKind) : Nat := r.diagnostics.countP (·.kind == k)

open Json

instance : Writable RunReport :=
  ⟨fun r => ofFields [
    ("files_scanned", toJson r.filesScanned), ("files_changed", toJson r.filesChanged),
    ("units", toJson r.units), ("reusable", toJson r.reusable),
    ("annotations_inserted", toJson r.annotationsInserted),
    ("blocks_stripped", toJson r.blocksStripped), ("call_edges", toJson r.callEdges),
    ("model_verdicts", toJson r.modelVerdicts), ("fallback_verdicts", toJson r.fallbackVerdicts),
    ("quota_used", toJson r.quotaUsed), ("indexed", toJson r.indexed),
    ("languages", ofMap r.languages), ("time_ms", toJson r.milliseconds),
    ("cancelled", toJson r.cancelled), ("diagnostics", toJson r.diagnostics)]⟩

instance : Readable RunReport :=
  ⟨fun v => do
    let r ← record? ["files_scanned", "files_changed", "units", "reusable",
      "annotations_inserted", "blocks_stripped", "call_edges", "model_verdicts",
      "fallback_verdicts", "quota_used", "indexed", "languages", "time_ms", "cancelled",
      "diagnostics"] v
    return {
      filesScanned := ← r.field "files_scanned"
      filesChanged := ← r.field "files_changed"
      units := ← r.field "units"
      reusable := ← r.field "reusable"
      annotationsInserted := ← r.field "annotations_inserted"
      blocksStripped := ← r.field "blocks_stripped"
      callEdges := ← r.field "call_edges"
      modelVerdicts := ← r.field "model_verdicts"
      fallbackVerdicts := ← r.field "fallback_verdicts"
      quotaUsed := ← r.field "quota_used"
      indexed := ← r.field "indexed"
      languages := ← (r.fields.lookup "languages").bind toMap?
      milliseconds := ← r.field "time_ms"
      cancelled := ← r.field "cancelled"
      diagnostics := ← r.field "diagnostics" }⟩

/-! ### Summaries -/

/-- The diagnostics, a line each, behind their number. -/
def issueLines (r : RunReport) : List String :=
  if r.diagnostics.isEmpty then []
  else ["", s!"{r.diagnostics.length} issue(s):"] ++ r.diagnostics.map fun d => "  " ++ d.line

/-- What a run has done, as a text. -/
def runSummary (r : RunReport) : String :=
  "\n".intercalate (
    [s!"Files scanned:        {r.filesScanned}",
      s!"Files changed:        {r.filesChanged}",
      s!"Units extracted:      {r.units}",
      s!"Reusable units:       {r.reusable}",
      s!"Annotations inserted: {r.annotationsInserted}",
      s!"Blocks stripped:      {r.blocksStripped}",
      s!"Call edges:           {r.callEdges}",
      s!"Verdicts:             {r.modelVerdicts} model, {r.fallbackVerdicts} fallback "
        ++ s!"({r.quotaUsed} calls spent)",
      s!"Indexed:              {r.indexed}",
      s!"Time:                 {r.milliseconds}ms"]
    ++ (if r.cancelled then ["Interrupted: files not yet started were left untouched"] else [])
    ++ r.issueLines)

/-- What stripping has done, as a text. -/
def stripSummary (r : RunReport) : String :=
  "\n".intercalate (
    s!"Stripped {r.blocksStripped} blocks from {r.filesChanged} of {r.filesScanned} files"
      :: r.issueLines)

end RunReport

end Marginalia
