import Marginalia.Glob
import Marginalia.Text.Blank
import Marginalia.Text.Lines
import Marginalia.Tree

/-!
Ignore files. Each line of such a file is a rule for the directory that it stands in and all below:
it tells a walk to pass over the entries that it matches or, with an exclamation mark in front, to
keep them. The last rule that matches decides, and a file deeper in the tree goes before one above.
-/

namespace Marginalia

open Text

/-- A line of an ignore file. -/
structure IgnoreRule where
  glob : Glob
  /-- The rule keeps what it matches. -/
  keeps : Bool
  /-- The rule is about directories alone. -/
  directoriesOnly : Bool

namespace IgnoreRule

/-- A pattern in which two stars at the end mean what is inside a directory and not the directory
itself, and which matches at any depth unless a slash ties it down. -/
def anchored (tied : Bool) (pattern : List Char) : List Char :=
  let free := !tied && !pattern.contains '/' && pattern != ['*', '*']
  let pattern := if free then "**/".toList ++ pattern else pattern
  if endsWith pattern "/**".toList then pattern ++ "/*".toList else pattern

/-- A pattern and what marks in front of it say: whether the rule keeps, and whether a slash ties
the pattern to the directory of the file. -/
def takeMarks : List Char → Bool × Bool × List Char
  | '\\' :: '!' :: rest => (false, false, '!' :: rest)
  | '\\' :: '#' :: rest => (false, false, '#' :: rest)
  | '!' :: '/' :: rest => (true, true, rest)
  | '!' :: rest => (true, false, rest)
  | '/' :: rest => (false, true, rest)
  | rest => (false, false, rest)

/-- A pattern without the slash at its end, and whether there was one. -/
def takeSlash (pattern : List Char) : Bool × List Char :=
  match pattern.reverse with
  | '/' :: '\\' :: rest => (true, rest.reverse)
  | '/' :: rest => (true, rest.reverse)
  | _ => (false, pattern)

/-- The rule of a line. Comments, blank lines and lines with a pattern that is none have no rule;
white space at the end of a line counts only behind a backslash. -/
def ofLine? (line : List Char) : Option IgnoreRule := do
  let text := if endsWith line ['\\', ' '] then line else trimEnd line
  if text.isEmpty || line.head? == some '#' then none
  let (keeps, tied, pattern) := takeMarks text
  let (directoriesOnly, pattern) := takeSlash pattern
  let glob ← Glob.parse? false true (String.ofList (anchored tied pattern))
  return ⟨glob, keeps, directoriesOnly⟩

/-- The rule is about an entry. -/
def covers (r : IgnoreRule) (path : String) (isDirectory : Bool) : Bool :=
  (!r.directoriesOnly || isDirectory) && r.glob.accepts path

end IgnoreRule

/-- The rules of an ignore file; a byte order mark in front of it says nothing. -/
def ignoreRules (text : String) : List IgnoreRule :=
  let mark : Char := Char.ofNat 0xFEFF
  (contents (text.toList.dropWhile (· == mark))).filterMap IgnoreRule.ofLine?

/-- What the rules of one file say about an entry: whether it is kept, if any rule is about it. -/
def judgment? (rules : List IgnoreRule) (path : String) (isDirectory : Bool) : Option Bool :=
  (rules.reverse.find? (·.covers path isDirectory)).map (·.keeps)

namespace FileTree

/-- The text of a file in a directory, as far as it is text. -/
def readBelow (t : FileTree) (directory : Location) (name : String) : String :=
  match t.stat (Path.ofNames "/" (directory ++ [name])) with
  | .ok (.file _ (.text s)) => s
  | .ok (.file _ (.bytes raw)) =>
    let whole := (List.range raw.length).reverse.findSome? fun n =>
      let front := raw.take (n + 1)
      if front.getLast? == some 10 then String.fromUTF8? ⟨front.toArray⟩ else none
    whole.getD ""
  | _ => ""

/-- What the ignore files of one name say about the entry at a place: the nearest file with a rule
about it decides. -/
def judgmentOf? (t : FileTree) (name : String) (place : Location) (isDirectory : Bool) :
    Option Bool :=
  (List.range place.length).reverse.findSome? fun depth =>
    let directory := place.take depth
    judgment? (ignoreRules (t.readBelow directory name)) ("/".intercalate (place.drop depth))
      isDirectory

/-- A name that a listing does not show. -/
def isHiddenName (name : String) : Bool := name.toList.head? == some '.'

/-- The names of ignore files in a directory; a rule in a file of the one goes before any rule in
files of the next. -/
def ignoreFiles : List String := [".ignore", ".gitignore", ".git/info/exclude"]

/-- A walk that heeds ignore files passes over the entry at a place. An entry that is kept may be
hidden. -/
def isIgnored (t : FileTree) (place : Location) (isDirectory : Bool) : Bool :=
  match ignoreFiles.findSome? (t.judgmentOf? · place isDirectory) with
  | some kept => !kept
  | none => (place.getLast?.map isHiddenName).getD false

end FileTree

end Marginalia
