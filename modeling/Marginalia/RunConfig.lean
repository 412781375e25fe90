import Marginalia.Model
import Marginalia.Segment
import Marginalia.Synchronize.File
import Marginalia.Walk

/-!
What a run needs to know, and when it can be used.
-/

namespace Marginalia

/-- Why a run could not be started or finished. -/
inductive RunError where
  | file (e : FileError)
  | invalidManifest
  | segment (e : SegmentError)
  | service (e : ServiceError)
  | invalidRoot (reason : String)
  | invalidConfig (reason : String)
  deriving DecidableEq, Repr

/-- The wording of an error. -/
def RunError.message : RunError → String
  | file e => s!"IO error: {e.message}"
  | invalidManifest => "Serialization error: invalid manifest"
  | segment e => s!"Segmenter error: {e.message}"
  | service e => s!"Enrichment error: {e.message}"
  | invalidRoot reason => s!"Invalid project root: {reason}"
  | invalidConfig reason => s!"Invalid configuration: {reason}"

/-- The settings of a run. -/
structure RunConfig where
  root : String := "."
  /-- The languages by extension, sorted by extension. -/
  extensions : List (String × Language) := sortBy (fun a b => a.1 < b.1) Language.defaultExtensions
  exclude : List String := ["node_modules", "venv", "__pycache__", "build", "dist"]
  /-- The budget of service calls; there may be no limit. -/
  quota : Option Nat := some 10
  lookback : Nat := defaultLookback
  maxFileSize : Nat := 1048576
  heedsIgnoreFiles : Bool := true
  /-- Everything is computed, but source files stay as they are. -/
  dryRun : Bool := false
  /-- How many files may be worked on at a time. -/
  parallelism : Nat := 1
  manifest : Option String := none
  /-- The file to which finished units are appended. -/
  index : Option String := none
  segmentation : SegmentOptions := {}
  model : ModelConfig := {}
  deriving DecidableEq, Repr

namespace RunConfig

open Json

instance : Writable RunConfig :=
  ⟨fun c => ofFields [
    ("root", toJson c.root), ("extensions", ofMap c.extensions), ("exclude", toJson c.exclude),
    ("quota", toJson c.quota), ("lookback", toJson c.lookback),
    ("max_file_size", toJson c.maxFileSize), ("respect_gitignore", toJson c.heedsIgnoreFiles),
    ("dry_run", toJson c.dryRun), ("parallelism", toJson c.parallelism),
    ("manifest_path", toJson c.manifest), ("index_path", toJson c.index),
    ("segmenter", toJson c.segmentation), ("llm", toJson c.model)]⟩

/-- The names of the written fields, in their order. -/
def fieldNames : List String :=
  ["root", "extensions", "exclude", "quota", "lookback", "max_file_size", "respect_gitignore",
    "dry_run", "parallelism", "manifest_path", "index_path", "segmenter", "llm"]

/-- Every field may be missing. -/
instance : Readable RunConfig :=
  ⟨fun v => do
    let r ← record? fieldNames v
    let standard : RunConfig := {}
    let extensions ←
      match r.fields.lookup "extensions" with
      | some v => toMap? v
      | none => some standard.extensions
    return {
      root := ← r.fieldOr "root" standard.root
      extensions := extensions
      exclude := ← r.fieldOr "exclude" standard.exclude
      quota := ← r.fieldOr "quota" standard.quota
      lookback := ← r.fieldOr "lookback" standard.lookback
      maxFileSize := ← r.fieldOr "max_file_size" standard.maxFileSize
      heedsIgnoreFiles := ← r.fieldOr "respect_gitignore" standard.heedsIgnoreFiles
      dryRun := ← r.fieldOr "dry_run" standard.dryRun
      parallelism := ← r.fieldOr "parallelism" standard.parallelism
      manifest := ← r.fieldOr "manifest_path" standard.manifest
      index := ← r.fieldOr "index_path" standard.index
      segmentation := ← r.fieldOr "segmenter" standard.segmentation
      model := ← r.fieldOr "llm" standard.model }⟩

/-- The most files that may be worked on at a time. -/
def maxParallelism : Nat := 16

/-- The root has to be a directory. -/
def checkRoot (t : FileTree) (root : String) : Except RunError Unit :=
  match t.stat root with
  | .error e => .error (.invalidRoot s!"{root}: {e.message}")
  | .ok .directory => .ok ()
  | .ok _ => .error (.invalidRoot s!"{root} is not a directory")

/-- Settings that can be used. -/
def check (c : RunConfig) (t : FileTree) : Except RunError Unit := do
  checkRoot t c.root
  if c.extensions.isEmpty then throw (.invalidConfig "extension map is empty")
  if let some (e, _) := c.extensions.find? fun (e, _) => Text.isBlankString e then
    throw (.invalidConfig s!"invalid extension key {Text.quoted e}")
  if c.lookback = 0 then throw (.invalidConfig "lookback must be at least 1")
  if c.maxFileSize = 0 then throw (.invalidConfig "max_file_size must be > 0")
  if c.parallelism = 0 || c.parallelism > maxParallelism then
    throw (.invalidConfig
      s!"parallelism ({c.parallelism}) must be within 1..={maxParallelism}")
  c.segmentation.check.mapError .segment
  c.model.check.mapError .service

/-- Where the manifest is written. -/
def manifestPath (c : RunConfig) : String :=
  Path.join c.root (c.manifest.getD ".madl/manifest.json")

/-- Where finished units are appended. -/
def indexPath (c : RunConfig) : Option String := c.index.map (Path.join c.root)

/-- How the tree is walked. -/
def walker (c : RunConfig) : Except RunError Walker :=
  match Exclusion.ofTexts c.exclude with
  | .ok exclusions => .ok ⟨c.root, c.extensions, exclusions, c.maxFileSize, c.heedsIgnoreFiles⟩
  | .error text => .error (.invalidConfig s!"exclude {Text.quoted text}")

end RunConfig

end Marginalia
