import Marginalia.CallGraph
import Marginalia.RunConfig
import Marginalia.RunReport

/-!
Scanning a tree: its source files are walked, read and cut into units, and the calls between the
units are resolved.
-/

namespace Marginalia

/-- A file that has been read and cut. -/
structure ParsedFile where
  file : SourceFile
  /-- The text that the units come from. -/
  text : String
  units : List CodeUnit
  deriving DecidableEq, Repr

/-- What a scan has found. -/
structure Scan where
  files : List ParsedFile
  graph : CallGraph
  report : RunReport

namespace Scan

/-- All units, file after file. -/
def units (s : Scan) : List CodeUnit := s.files.flatMap (·.units)

end Scan

/-- A file that cannot be read has a diagnostic instead. -/
def parseFile (o : SegmentOptions) (t : FileTree) (f : SourceFile) : Except Diagnostic ParsedFile :=
  match t.readText f.path with
  | .ok text => .ok ⟨f, text, segment o text f.relative f.language⟩
  | .error e => .error (.ofFile f.relative .read e.message)

/-- The files that could be read, and the diagnostics of the others. -/
def parseFiles (o : SegmentOptions) (t : FileTree) (files : List SourceFile) :
    List ParsedFile × List Diagnostic :=
  let parsed := files.map (parseFile o t)
  (parsed.filterMap fun | .ok f => some f | .error _ => none,
    parsed.filterMap fun | .ok _ => none | .error d => some d)

/-- Deals units out to files, to each as many as it had. -/
def dealUnits : List ParsedFile → List CodeUnit → List ParsedFile
  | [], _ => []
  | f :: rest, units =>
    { f with units := units.take f.units.length } :: dealUnits rest (units.drop f.units.length)

/-- The calls between the units of all files; without them if the units cannot be told apart. -/
def resolveCalls (root : String) (files : List ParsedFile) :
    List ParsedFile × CallGraph × List Diagnostic :=
  match CallGraph.build (files.flatMap (·.units)) with
  | .ok (g, units) => (dealUnits files units, g, [])
  | .error e => (files, .empty, [.ofFile root .graph e.message])

/-- Scans a tree. -/
def RunConfig.scan (c : RunConfig) (t : FileTree) : Except RunError Scan := do
  let found := (← c.walker).walk t
  let (parsed, unread) := parseFiles c.segmentation t found
  let (files, graph, unresolved) := resolveCalls c.root parsed
  let report := found.foldl (fun r f => r.addFile f.language) ({} : RunReport)
  return {
    files := files
    graph := graph
    report := { report with
      units := (parsed.flatMap (·.units)).length
      diagnostics := unread ++ unresolved } }

/-- Every file keeps as many units as it had. -/
theorem length_dealUnits (files : List ParsedFile) (units : List CodeUnit) :
    (dealUnits files units).length = files.length := by
  induction files generalizing units with
  | nil => rfl
  | cons f rest ih => simp [dealUnits, ih]

end Marginalia
