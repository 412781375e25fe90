import Marginalia.Text.Search

/-!
Paths as text. A path is read as the names between its slashes; empty names and single dots say
nothing and are passed over.
-/

namespace Marginalia.Path

open Text

/-- The names of a path, `..` included. -/
def names (path : String) : List String :=
  ((splitAtEach '/' path.toList).map String.ofList).filter fun n => n != "" && n != "."

/-- The path starts at the root of the file system. -/
def isAbsolute (path : String) : Bool := path.toList.head? == some '/'

/-- The last name of a path, unless it leads upward. -/
def fileName? (path : String) : Option String := (names path).getLast?.filter (· != "..")

/-- Cuts a file name at its last dot, which must not stand in front: the stem and the extension. -/
def splitExtension? (name : String) : Option (String × String) :=
  let reversed := name.toList.reverse
  match splitAtFirst? '.' reversed with
  | some (extension, stem) =>
    if stem.isEmpty then none
    else some (String.ofList stem.reverse, String.ofList extension.reverse)
  | none => none

/-- The extension of the file that a path names. -/
def extension? (path : String) : Option String :=
  (fileName? path).bind fun n => (splitExtension? n).map (·.2)

/-- How a path ends. -/
inductive Ending where
  /-- With a name. -/
  | name
  /-- With a name and a slash: a directory has to stand there. -/
  | slash
  /-- With dots, or nowhere: the names before are directories on the way. -/
  | dots
  deriving DecidableEq, Repr

/-- How a path ends. -/
def ending (path : String) : Ending :=
  let pieces := (splitAtEach '/' path.toList).reverse
  match pieces.dropWhile List.isEmpty with
  | [] | ['.'] :: _ | ['.', '.'] :: _ => .dots
  | _ => if pieces.head? == some [] then .slash else .name

/-- The path of what stands below a directory, seen from there. -/
def below? (directory path : String) : Option String :=
  (dropFront? directory.toList path.toList).map fun rest =>
    let pieces := (splitAtEach '/' rest).dropWhile fun n => n == [] || n == ['.']
    "/".intercalate (pieces.map String.ofList)

/-- The path that leads from `root` along `path`. -/
def join (root path : String) : String :=
  if isAbsolute path || root == "" then path
  else if root.toList.getLast? == some '/' then root ++ path
  else root ++ "/" ++ path

/-- The path of names from the start of another path. -/
def ofNames (start : String) (ns : List String) : String :=
  (if isAbsolute start then "/" else "") ++ "/".intercalate ns

/-- The path with another last name. -/
def withFileName (path name : String) : String := ofNames path ((names path).dropLast ++ [name])

/-- The path with another extension on its last name. -/
def withExtension (path extension : String) : String :=
  match fileName? path with
  | none => path
  | some name =>
    let stem := ((splitExtension? name).map (·.1)).getD name
    withFileName path (stem ++ "." ++ extension)

end Marginalia.Path
