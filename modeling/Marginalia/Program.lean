import Marginalia.CommandLine
import Marginalia.Project

/-!
The program as a function: from a command line, an environment and a file tree to what is printed
and the file tree behind it.
-/

namespace Marginalia

/-- What a command has found out. -/
inductive Finding where
  | ran (r : RunReport)
  | scanned (records : List ManifestRecord)
  | stripped (r : RunReport)
  deriving DecidableEq, Repr

namespace Finding

/-- Notes how long it took. -/
def withTime (f : Finding) (milliseconds : Nat) : Finding :=
  match f with
  | ran r => ran { r with milliseconds := milliseconds }
  | stripped r => stripped { r with milliseconds := milliseconds }
  | scanned records => scanned records

/-- A finding as JSON. -/
def json : Finding → Json
  | ran r | stripped r => Json.toJson r
  | scanned records => Json.toJson records

/-- A finding as plain text. -/
def plain : Finding → String
  | ran r => r.runSummary
  | scanned records => listing records
  | stripped r => r.stripSummary

/-- The text that is printed. -/
def text (f : Finding) (asJson : Bool) : String :=
  if asJson then Json.toPrettyText f.json else f.plain

end Finding

/-- How the program ends. -/
structure Ending where
  code : UInt32
  output : String := ""
  error : String := ""
  deriving DecidableEq, Repr

namespace Invocation

/-- Gets the project of a command ready. -/
def setUp (i : Invocation) (e : Environment) (transport : Transport) (t : FileTree) :
    Except String Project × FileTree :=
  match t.canonical i.root with
  | .error _ => (.error s!"Invalid project root: {i.root}", t)
  | .ok root =>
    match Settings.resolve t root i.configFile e i.overrides with
    | .error e => (.error e.message, t)
    | .ok c =>
      let (p, t) := Project.setUp c transport t
      (p.mapError fun _ => "Failed to start pipeline", t)

/-- Does what the verb says. -/
def act (i : Invocation) (p : Project) (w : World) : Except RunError Finding × World :=
  match i.verb with
  | .run =>
    let (r, w) := p.run w
    (r.map .ran, w)
  | .scan => ((p.scan w).map fun s => .scanned (s.units.map ManifestRecord.ofUnit), w)
  | .strip =>
    let (r, w) := p.strip w
    (r.map .stripped, w)

/-- Carries a command out: what it has found, or what went wrong, and the tree behind it. -/
def perform (i : Invocation) (e : Environment) (transport : Transport) (t : FileTree) :
    Except String Finding × FileTree :=
  match i.setUp e transport t with
  | (.error message, t) => (.error message, t)
  | (.ok p, t) =>
    let (f, w) := i.act p (p.startWorld t)
    (f.mapError RunError.message, w.tree)

/-- How the program ends behind a command. -/
def ending (i : Invocation) (f : Except String Finding) : Ending :=
  match f with
  | .ok f => { code := 0, output := f.text i.json ++ "\n" }
  | .error message => { code := 1, error := s!"Error: {message}\n" }

end Invocation

/-- How the program ends without a command. -/
def Refusal.ending : Refusal → Ending
  | help => { code := 0, output := CommandLine.helpText ++ "\n" }
  | version => { code := 0, output := CommandLine.versionText ++ "\n" }
  | usage reason => { code := 2, error := s!"error: {reason}\n" }

end Marginalia
