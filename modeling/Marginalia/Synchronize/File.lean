import Marginalia.Synchronize
import Marginalia.Tree

/-!
Bringing files in step with their annotations. A file is read, its text is brought in step, and if
that changes anything the new text takes the place of the old one as a whole.
-/

namespace Marginalia

/-- Why a file was not brought in step. -/
inductive SyncError where
  | file (e : FileError)
  | invalidConfig (reason : String)
  deriving DecidableEq, Repr

/-- The wording of an error. -/
def SyncError.message : SyncError → String
  | file e => s!"IO error: {e.message}"
  | invalidConfig reason => s!"Invalid configuration: {reason}"

/-- The hidden file beside a file by way of which a text is put in its place; there is none beside
a path without a file name. -/
def besidePath? (path : String) : Option String :=
  (Path.fileName? path).map fun name => Path.withFileName path s!".{name}.madl.tmp"

/-- No text can be put in the place of something without a file name. -/
def SyncError.notAFile (path : String) : SyncError := .invalidConfig s!"not a file path: {path}"

/-- Puts a text in the place of a file, by way of a hidden file beside it. -/
def commit (t : FileTree) (path text : String) : Except SyncError Unit × FileTree :=
  match besidePath? path with
  | none => (.error (.notAFile path), t)
  | some beside =>
    let (done, t) := t.replaceBy path beside text
    (done.mapError .file, t)

/-- Puts the text of an outcome in the place of a file, if it is another one and not only tried. -/
def commitOutcome (t : FileTree) (path : String) (o : SyncOutcome) (dryRun : Bool) :
    Except SyncError Unit × FileTree :=
  if o.changed && !dryRun then commit t path o.text else (.ok (), t)

/-- Reads a file, changes its text and writes it back. -/
def renewFile (t : FileTree) (path : String) (dryRun : Bool) (renew : String → SyncOutcome) :
    Except SyncError SyncOutcome × FileTree :=
  match t.readText path with
  | .error e => (.error (.file e), t)
  | .ok text =>
    let o := renew text
    let (done, t) := commitOutcome t path o dryRun
    (done.map fun () => o, t)

/-- Brings a file in step with the annotations of its units. -/
def synchronizeFile (t : FileTree) (lookback : Nat) (path : String) (l : Language)
    (units : List CodeUnit) (dryRun : Bool) : Except SyncError SyncOutcome × FileTree :=
  renewFile t path dryRun (synchronize lookback · l units)

/-- Takes the blocks out of a file. -/
def stripFile (t : FileTree) (path : String) (l : Language) (dryRun : Bool) :
    Except SyncError SyncOutcome × FileTree :=
  renewFile t path dryRun (stripText · l)

/-- A dry run changes no file. -/
theorem renewFile_dry (t : FileTree) (path : String) (renew : String → SyncOutcome) :
    (renewFile t path true renew).2 = t := by
  unfold renewFile commitOutcome
  split <;> simp

end Marginalia
