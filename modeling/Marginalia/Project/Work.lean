import Marginalia.Enrichment
import Marginalia.Project.Scan

/-!
The work on one file: its units are enriched, its text is brought in step with them, and the units
that can be reused are handed to the index. A request to stop is heeded before the work and once
more before anything is written.
-/

namespace Marginalia

/-- What the work on all files has in common. -/
structure Workshop where
  enricher : Enricher
  index : Index
  lookback : Nat
  dryRun : Bool

/-- What became of a file. -/
structure FileOutcome where
  units : List CodeUnit
  reports : List EnrichReport := []
  /-- What was done to the text, unless it could not be read or written. -/
  sync : Option SyncOutcome := none
  /-- How many units the index took in. -/
  indexed : Nat := 0
  diagnostics : List Diagnostic := []
  /-- The work was broken off on request. -/
  cancelled : Bool := false

namespace FileOutcome

/-- The work was not begun. -/
def untouched (f : ParsedFile) : FileOutcome where
  units := f.units
  diagnostics := [.ofFile f.file.relative .cancelled "left untouched"]
  cancelled := true

/-- The work crashed; the units are as they were. -/
def crashed (number : Nat) (f : ParsedFile) (message : String) : FileOutcome where
  units := f.units
  diagnostics := [.ofFile f.file.relative .task
    s!"task {number} panicked with message {Text.quoted message}"]

end FileOutcome

/-- A unit that has been offered to the index. -/
structure OfferedUnit where
  unit : CodeUnit
  /-- The index took it in. -/
  taken : Bool
  diagnostics : List Diagnostic

namespace Workshop

/-- Offers a unit to the index, if it can be reused. -/
def offer (s : Workshop) (relative : String) (u : CodeUnit) : Task OfferedUnit :=
  if u.isReusable then do
    match ← Task.ingest s.index u with
    | .ok id => return ⟨{ u with indexId := some id }, true, []⟩
    | .error e => return ⟨u, false, [.ofUnit relative u.id .index e.message]⟩
  else return ⟨u, false, []⟩

/-- The failures of services that the local rules made good. -/
def enrichIssues (relative : String) (enriched : List (CodeUnit × EnrichReport)) :
    List Diagnostic :=
  enriched.flatMap fun (u, r) => r.errors.map (.ofUnit relative u.id .enrich)

/-- What was done to the text of a file, unless nothing was, and what went wrong. -/
def syncResult (relative : String) (r : Except FileError Renewed) :
    Option SyncOutcome × List Diagnostic :=
  match r with
  | .error e => (none, [.ofFile relative .read e.message])
  | .ok ⟨o, committed⟩ =>
    let skipped := o.skipped.map fun s =>
      .ofUnit relative s.id .skipped s!"{s.name}: {s.reason.message}"
    match committed with
    | .ok () => (some o, skipped)
    | .error e => (none, skipped ++ [.ofFile relative .write e.message])

/-- The work on a file. -/
def work (s : Workshop) (f : ParsedFile) : Task FileOutcome := do
  if ← Task.isCancelled then return .untouched f
  let relative := f.file.relative
  let enriched ← f.units.mapM s.enricher.enrich
  let units := enriched.map (·.1)
  let reports := enriched.map (·.2)
  let issues := enrichIssues relative enriched
  if ← Task.isCancelled then
    return {
      units := units
      reports := reports
      diagnostics := issues ++ [.ofFile relative .cancelled "cancelled before commit"]
      cancelled := true }
  let (sync, syncIssues) := syncResult relative (← Task.renew {
    path := f.file.path
    language := f.file.language
    units := units
    lookback := s.lookback
    dryRun := s.dryRun })
  let offered ← units.mapM (s.offer relative)
  return {
    units := offered.map (·.unit)
    reports := reports
    sync := sync
    indexed := offered.countP (·.taken)
    diagnostics := issues ++ syncIssues ++ offered.flatMap (·.diagnostics) }

/-- Does the work on a file without a break. -/
def finish (s : Workshop) (number : Nat) (f : ParsedFile) (w : World) : FileOutcome × World :=
  match (s.work f).run w with
  | (.ok o, w) => (o, w)
  | (.error message, w) => (.crashed number f message, w)

/-- Does the work on files one after the other. -/
def finishAll (s : Workshop) : List (ParsedFile × Nat) → World → List FileOutcome × World
  | [], w => ([], w)
  | (f, number) :: rest, w =>
    let (o, w) := s.finish number f w
    let (os, w) := finishAll s rest w
    (o :: os, w)

end Workshop

end Marginalia
