import Marginalia.Tree

/-!
Trees that are taken from somewhere else, and what has to be done there behind the work. A tree is
put together from the files it is to hold, and the changes between two trees are the files to write
and the files to remove.
-/

namespace Marginalia

/-- What there is to do with a file. -/
inductive Change where
  | write (place : Location) (content : Content)
  | remove (place : Location)
  deriving DecidableEq, Repr

namespace FileTree

/-- The place that a path names where there are no links. -/
def placeOf (t : FileTree) (path : String) : Location :=
  (Path.names path).foldl (fun here name => if name = ".." then here.dropLast else here ++ [name])
    (t.startOf path)

/-- The tree with a directory at a place, and with those on the way to it. -/
def withDirectory (t : FileTree) (l : Location) : FileTree :=
  (fronts l).foldl (fun t d => if (t.at? d).isNone then t.put d .directory else t) t

/-- The tree with a new file at a place, and with the directories on the way to it. -/
def withFile (t : FileTree) (l : Location) (c : Content) : FileTree :=
  { (t.withDirectory l.dropLast).put l (.file t.nextSerial c) with
    nextSerial := t.nextSerial + 1 }

/-- What the file at a place holds. -/
def contentAt? (t : FileTree) (l : Location) : Option Content :=
  match t.at? l with
  | some (.file _ c) => some c
  | _ => none

/-- The files that have to be written to come from one tree to another. -/
def written (before after : FileTree) : List Change :=
  after.entries.filterMap fun (l, _) =>
    match after.contentAt? l with
    | none => none
    | some c => if before.contentAt? l = some c then none else some (.write l c)

/-- The files that have to be removed to come from one tree to another. -/
def removed (before after : FileTree) : List Change :=
  before.entries.filterMap fun (l, _) =>
    if (before.contentAt? l).isSome && (after.contentAt? l).isNone then some (.remove l) else none

/-- All that has to be done to come from one tree to another. -/
def changes (before after : FileTree) : List Change :=
  written before after ++ removed before after

/-- A tree that is left as it is has no changes. -/
theorem changes_self (t : FileTree) : t.changes t = [] := by
  have hw : written t t = [] := by
    rw [written, List.filterMap_eq_nil_iff]
    rintro ⟨l, e⟩ -
    cases h : t.contentAt? l <;> simp [h]
  have hr : removed t t = [] := by
    rw [removed, List.filterMap_eq_nil_iff]
    rintro ⟨l, e⟩ -
    cases h : t.contentAt? l <;> simp [h]
  rw [changes, hw, hr, List.nil_append]

/-- A file that has been put into a tree is found there. -/
theorem contentAt?_withFile (t : FileTree) {l : Location} (c : Content) (h : l ≠ []) :
    (t.withFile l c).contentAt? l = some c := by
  have hp := at?_put_self (t.withDirectory l.dropLast) (.file t.nextSerial c) h
  have hf : (t.withFile l c).at? l = some (.file t.nextSerial c) := by
    rw [← hp]
    rfl
  rw [contentAt?, hf]

end FileTree

end Marginalia
