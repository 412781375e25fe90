import Marginalia.Program
import Marginalia.Tree.Snapshot

/-!
The command line. The files and directories that a command may see are named on standard input, one
path a line; behind the command, the files that it has changed are written and those that it has
removed are removed.
-/

namespace Marginalia

/-- The environment, as far as settings are read from it. -/
def readEnvironment : IO Environment :=
  Settings.variableNames.filterMapM fun name => do
    return (← IO.getEnv name).map (name, ·)

/-- The tree with what a path names; nothing is added for one that cannot be read. -/
def readEntry (t : FileTree) (path : String) : IO FileTree := do
  match ← (IO.FS.readBinFile path).toBaseIO with
  | .ok raw => return t.withFile (t.placeOf path) (.ofBytes raw.toList)
  | .error (.inappropriateType ..) => return t.withDirectory (t.placeOf path)
  | .error _ => return t

/-- The tree of the paths on standard input. -/
def readTree : IO FileTree := do
  let here := (← IO.getEnv "PWD").getD "/"
  let listing ← (← IO.getStdin).readToEnd
  let paths := (Text.splitAtEach '\n' listing.toList).map String.ofList
  (paths.filter (· != "")).foldlM readEntry (FileTree.empty (Path.names here))

/-- Makes a change outside. -/
def makeChange : Change → IO Unit
  | .write place content => do
    IO.FS.createDirAll (Path.ofNames "/" place.dropLast)
    IO.FS.writeBinFile (Path.ofNames "/" place) content.raw
  | .remove place => IO.FS.removeFile (Path.ofNames "/" place)

/-- Prints how the program ends, and ends. -/
def Ending.print (e : Ending) : IO UInt32 := do
  IO.print e.output
  IO.eprint e.error
  return e.code

/-- Carries the command of a command line out. -/
def execute (arguments : List String) : IO UInt32 := do
  match CommandLine.parse arguments with
  | .error refusal => refusal.ending.print
  | .ok invocation =>
    let environment ← readEnvironment
    let before ← readTree
    let start ← IO.monoMsNow
    let (found, after) := invocation.perform environment .none before
    (before.changes after).forM makeChange
    let milliseconds := (← IO.monoMsNow) - start
    (invocation.ending (found.map (·.withTime milliseconds))).print

end Marginalia

/-- Runs the program. -/
def main (arguments : List String) : IO UInt32 := Marginalia.execute arguments
