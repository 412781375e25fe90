import Marginalia.RunConfig

/-!
The manifest of a run: one record for each unit, as indented JSON in a file.
-/

namespace Marginalia

/-- A unit as the manifest keeps it. -/
structure ManifestRecord where
  id : UnitId
  file : String
  language : Language
  scope : Option String
  name : String
  signature : String
  range : LineRange
  body : String
  callsOut : List String
  callsIn : List UnitId
  reusable : Bool
  reason : Option String
  confidence : Option Single
  source : Option Source
  annotation : Option Annotation
  indexId : Option String
  deriving DecidableEq, Repr

namespace ManifestRecord

/-- The record of a unit. -/
def ofUnit (u : CodeUnit) : ManifestRecord where
  id := u.id
  file := u.file
  language := u.language
  scope := u.scope
  name := u.name
  signature := u.signature
  range := u.range
  body := u.body
  callsOut := u.callsOut
  callsIn := u.callsIn
  reusable := u.isReusable
  reason := u.verdict.map (·.reason)
  confidence := u.verdict.map (·.confidence)
  source := u.verdict.map (·.source)
  annotation := u.annotation
  indexId := u.indexId

open Json

instance : Writable ManifestRecord :=
  ⟨fun r => ofFields [
    ("id", toJson r.id), ("file", toJson r.file), ("language", toJson r.language),
    ("scope", toJson r.scope), ("name", toJson r.name), ("signature", toJson r.signature),
    ("line_range", toJson r.range), ("body", toJson r.body), ("calls_out", toJson r.callsOut),
    ("calls_in", toJson r.callsIn), ("reusable", toJson r.reusable),
    ("reason", toJson r.reason), ("confidence", toJson r.confidence),
    ("verdict_source", toJson r.source), ("annotation", toJson r.annotation),
    ("index_id", toJson r.indexId)]⟩

instance : Readable ManifestRecord :=
  ⟨fun v => do
    let r ← record? ["id", "file", "language", "scope", "name", "signature", "line_range", "body",
      "calls_out", "calls_in", "reusable", "reason", "confidence", "verdict_source", "annotation",
      "index_id"] v
    return {
      id := ← r.field "id"
      file := ← r.field "file"
      language := ← r.field "language"
      scope := ← r.optional "scope"
      name := ← r.field "name"
      signature := ← r.field "signature"
      range := ← r.field "line_range"
      body := ← r.field "body"
      callsOut := ← r.field "calls_out"
      callsIn := ← r.field "calls_in"
      reusable := ← r.field "reusable"
      reason := ← r.optional "reason"
      confidence := ← r.optional "confidence"
      source := ← r.optional "verdict_source"
      annotation := ← r.optional "annotation"
      indexId := ← r.optional "index_id" }⟩

/-- A record in one line: where it is, its signature, its scope and how many callers it has. -/
def line (r : ManifestRecord) : String :=
  let scope := match r.scope with
    | some s => s!" [{s}]"
    | none => ""
  let callers := if r.callsIn.isEmpty then "" else s!" <- {r.callsIn.length} caller(s)"
  s!"{r.file}:{r.range.firstLine} {r.signature}{scope}{callers}\n"

end ManifestRecord

/-- The records, a line each, and their number. -/
def listing (records : List ManifestRecord) : String :=
  String.join (records.map (·.line)) ++ s!"{records.length} units"

/-- The file beside a manifest by way of which it is written. -/
def besideManifest (path : String) : String := Path.withExtension path "json.tmp"

/-- The text of a manifest. -/
def manifestText (records : List ManifestRecord) : String := Json.toPrettyText (Json.toJson records)

/-- Writes a manifest to a path, by way of a file beside it. -/
def writeManifest (t : FileTree) (path : String) (records : List ManifestRecord) :
    Except RunError Unit × FileTree :=
  match t.makeParents path with
  | .error e => (.error (.file e), t)
  | .ok t =>
    match t.writeText (besideManifest path) (manifestText records) with
    | .error e => (.error (.file e), t)
    | .ok t =>
      match t.rename (besideManifest path) path with
      | .error e => (.error (.file e), t)
      | .ok t => (.ok (), t)

/-- Reads the manifest at a path. -/
def readManifest (t : FileTree) (path : String) : Except RunError (List ManifestRecord) :=
  match t.readText path with
  | .error .notText => .error .invalidManifest
  | .error e => .error (.file e)
  | .ok text =>
    match Json.readText? (List ManifestRecord) text with
    | some records => .ok records
    | none => .error .invalidManifest

end Marginalia
