import Marginalia.SourceLanguage
import Marginalia.Ordered
import Marginalia.Text.Quoted
import Marginalia.Walk.Ignore

/-!
Walking a tree for source files. A file is listed if its extension is one of a map, if it is not too
large, and if neither it nor a directory above it is excluded or ignored. Links are not followed.
-/

namespace Marginalia

open Text

/-- A source file under the root. -/
structure SourceFile where
  path : String
  /-- The names from the root to the file, with slashes between them. -/
  relative : String
  language : Language
  deriving DecidableEq, Repr

/-- What a walk passes over. -/
inductive Exclusion where
  /-- Directories with the text somewhere in their relative path. -/
  | part (text : String)
  /-- Entries with a relative path that the glob matches. -/
  | glob (g : Glob)

namespace Exclusion

/-- A text with a character of globs is one, any other is part of a path. -/
def ofText? (text : String) : Option Exclusion :=
  if text.toList.any fun c => ['*', '?', '[', '\x7b'].contains c then
    (Glob.parse? true false text).map glob
  else some (part text)

/-- The exclusion is about an entry. -/
def covers (x : Exclusion) (relative : String) (isDirectory : Bool) : Bool :=
  match x with
  | part text => isDirectory && occursIn text.toList relative.toList
  | glob g => g.accepts relative

/-- The exclusions that texts write down, the blank ones left out; the error is a text that is no
glob. -/
def ofTexts (texts : List String) : Except String (List Exclusion) :=
  ((texts.map trimmed).filter (· != "")).mapM fun text =>
    match ofText? text with
    | some x => .ok x
    | none => .error text

end Exclusion

/-- How a tree is walked. -/
structure Walker where
  root : String
  extensions : List (String × Language)
  exclusions : List Exclusion
  maxFileSize : Nat
  /-- Ignore files are heeded and hidden entries passed over. -/
  heedsIgnoreFiles : Bool

namespace Walker

/-- The language of the file at a path. -/
def language? (w : Walker) (path : String) : Option Language :=
  (Path.extension? path).bind fun e => w.extensions.lookup (lowered e)

/-- The walk passes over the entry that `names` lead to from the place of the root, with all below
it. -/
def prunes (w : Walker) (t : FileTree) (root : Location) (names : List String)
    (isDirectory : Bool) : Bool :=
  (w.heedsIgnoreFiles && t.isIgnored (root ++ names) isDirectory)
    || w.exclusions.any (·.covers ("/".intercalate names) isDirectory)

/-- The walk reaches the file that `names` lead to: neither the file nor a directory on the way is
passed over. -/
def reaches (w : Walker) (t : FileTree) (root : Location) (names : List String) : Bool :=
  (List.range names.length).all fun n =>
    let front := names.take (n + 1)
    let isDirectory := n + 1 < names.length
    (!isDirectory || t.at? (root ++ front) == some .directory)
      && !w.prunes t root front isDirectory

/-- The file at a path, if it is of a listed kind and size. -/
def listed? (w : Walker) (path relative : String) (c : Content) : Option SourceFile :=
  if c.size > w.maxFileSize then none else (w.language? path).map (⟨path, relative, ·⟩)

/-- The entry of a tree as a source file, if the walk lists it. -/
def visit? (w : Walker) (t : FileTree) (root : Location) (place : Location) (e : Entry) :
    Option SourceFile :=
  match e with
  | .file _ c =>
    if root.isPrefixOf place && w.reaches t root (place.drop root.length) then
      let relative := "/".intercalate (place.drop root.length)
      w.listed? (Path.join w.root relative) relative c
    else none
  | _ => none

/-- All source files under the root, in the order of their relative paths. -/
def walk (w : Walker) (t : FileTree) : List SourceFile :=
  match t.find w.root with
  | .ok (_, .file _ c) => (w.listed? w.root "" c).toList
  | .ok (root, .directory) =>
    sortBy (fun a b => a.relative < b.relative)
      (t.entries.filterMap fun (place, e) => w.visit? t root place e)
  | _ => []

end Walker

end Marginalia
