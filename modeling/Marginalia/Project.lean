import Marginalia.RunManifest
import Marginalia.Project.Work

/-!
Projects: a tree with settings and services, and what can be done with it. A scan only looks, a run
brings every source file in step and writes the manifest, and stripping takes all blocks out again.
-/

namespace Marginalia

/-- A project that is ready for work. -/
structure Project where
  config : RunConfig
  enricher : Enricher
  index : Index

namespace Project

/-- The services of a client: it judges and describes. -/
def enricherOf (client : Option ModelClient) : Enricher :=
  ⟨client.map ModelClient.judge, client.map ModelClient.describe⟩

/-- Checks the settings and gets everything ready, the index file included. -/
def setUp (c : RunConfig) (transport : Transport) (t : FileTree) :
    Except RunError Project × FileTree :=
  match (do
    c.check t
    (ModelClient.of c.model transport).mapError RunError.service) with
  | .error e => (.error e, t)
  | .ok client =>
    match c.indexPath with
    | none => (.ok ⟨c, enricherOf client, .null⟩, t)
    | some path =>
      let (index, t) := Index.openAt t path
      (match index with
        | .ok index => .ok ⟨c, enricherOf client, index⟩
        | .error e => .error (.service (.io e.message)), t)

/-- The world in which the project starts. -/
def startWorld (p : Project) (t : FileTree) : World := .start t p.config.quota

/-- Scans the tree. -/
def scan (p : Project) (w : World) : Except RunError Scan := p.config.scan w.tree

/-! ### Running -/

/-- What the work on the files of the project has in common. -/
def workshop (p : Project) : Workshop := ⟨p.enricher, p.index, p.config.lookback, p.config.dryRun⟩

/-- Adds up what became of a file. -/
def addOutcome (r : RunReport) (o : FileOutcome) : RunReport :=
  let r := { r with
    reusable := r.reusable + o.units.countP CodeUnit.isReusable
    indexed := r.indexed + o.indexed
    cancelled := r.cancelled || o.cancelled }
  let r := o.reports.foldl (fun r e => r.addVerdict e.judgedBy) r
  let r :=
    match o.sync with
    | none => r
    | some s => { r with
        annotationsInserted := r.annotationsInserted + s.inserted.length
        blocksStripped := r.blocksStripped + s.stripped.length
        filesChanged := r.filesChanged + s.changed.toNat }
  r.addDiagnostics o.diagnostics

/-- The files of a scan that have units, each with its number. -/
def workList (s : Scan) : List (ParsedFile × Nat) :=
  s.files.zipIdx.filter fun (f, _) => !f.units.isEmpty

/-- The report on what became of the files of a scan, and the manifest written. -/
def conclude (p : Project) (s : Scan) (outcomes : List FileOutcome) (w : World) :
    Except RunError RunReport × World :=
  let report := outcomes.foldl addOutcome { s.report with callEdges := s.graph.stats.edges }
  let records := outcomes.flatMap fun o => o.units.map ManifestRecord.ofUnit
  let (written, tree) := writeManifest w.tree p.config.manifestPath records
  (written.map fun () => { report with quotaUsed := w.budget.used }, { w with tree := tree })

/-- Works on all files and writes the manifest. -/
def run (p : Project) (w : World) : Except RunError RunReport × World :=
  match p.scan w with
  | .error e => (.error e, w)
  | .ok s =>
    let (outcomes, w) := p.workshop.finishAll (workList s) w
    p.conclude s outcomes w

/-! ### Stripping -/

/-- Takes the blocks out of a file. What goes wrong with writing is reported, but the file counts as
changed. -/
def stripOne (p : Project) (r : RunReport) (f : SourceFile) (w : World) : RunReport × World :=
  let r := r.addFile f.language
  if w.cancelled then ({ r with cancelled := true }, w)
  else
    match w.tree.readText f.path with
    | .error e => (r.addDiagnostics [.ofFile f.relative .read e.message], w)
    | .ok text =>
      let o := stripText text f.language
      let r := if o.changed then { r with
          blocksStripped := r.blocksStripped + o.stripped.length
          filesChanged := r.filesChanged + 1 } else r
      let (done, tree) := commitOutcome w.tree f.path o p.config.dryRun
      let w := { w with tree := tree }
      match done with
      | .ok () => (r, w)
      | .error e => (r.addDiagnostics [.ofFile f.relative .write e.message], w)

/-- Takes the blocks out of all source files. -/
def strip (p : Project) (w : World) : Except RunError RunReport × World :=
  match p.config.walker with
  | .error e => (.error e, w)
  | .ok walker =>
    let (report, w) := (walker.walk w.tree).foldl (fun (r, w) f => p.stripOne r f w) ({}, w)
    (.ok report, w)

/-- What stripping files one after the other may come to, when before each of them the run may be
asked to stop, or no longer to stop. -/
inductive StripSteps (p : Project) :
    List SourceFile → RunReport × World → RunReport × World → Prop
  | none {x : RunReport × World} : StripSteps p [] x x
  | one {f : SourceFile} {rest : List SourceFile} {r : RunReport} {w : World}
      {y : RunReport × World} (stop : Bool)
      (steps : StripSteps p rest (p.stripOne r f { w with cancelled := stop }) y) :
      StripSteps p (f :: rest) (r, w) y

/-- What stripping may come to, whenever the run is asked to stop. -/
inductive StripsTo (p : Project) (w : World) : Except RunError RunReport × World → Prop
  | unwalked {e : RunError} (unread : p.config.walker = .error e) : StripsTo p w (.error e, w)
  | stripped {walker : Walker} {report : RunReport} {w' : World}
      (read : p.config.walker = .ok walker)
      (steps : StripSteps p (walker.walk w.tree) ({}, w) (report, w')) :
      StripsTo p w (.ok report, w')

/-- Reads the manifest back. -/
def manifest (p : Project) (w : World) : Except RunError (List ManifestRecord) :=
  readManifest w.tree p.config.manifestPath

end Project

end Marginalia
