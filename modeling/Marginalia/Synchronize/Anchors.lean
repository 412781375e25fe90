import Marginalia.AnnotationBlock.Removal
import Marginalia.Header

/-!
Anchors: the definition lines of a stripped text, on which units are set down again. A unit claims
the definition of its name that is nearest to the place where it was, and no two units claim one
line.
-/

namespace Marginalia

/-- A definition line: the defined name, and the number of the line. -/
structure Anchor where
  name : String
  line : Nat
  deriving DecidableEq, Repr

/-- The definition lines among lines, numbered from `index` on. -/
def anchorsFrom (l : Language) (index : Nat) (lines : List Text.Line) : List Anchor :=
  (lines.zipIdx index).filterMap fun (line, i) =>
    (Header.ofLine? l (withoutTerminator line)).map fun h => ⟨h.name, i⟩

/-- How far two line numbers lie apart. -/
def distance (a b : Nat) : Nat := (a - b) + (b - a)

/-- Of two anchors the one nearer to `hint`, the upper one if both are equally near. -/
def nearer (hint : Nat) (a b : Anchor) : Anchor :=
  let (da, db) := (distance a.line hint, distance b.line hint)
  if da < db || (da == db && a.line ≤ b.line) then a else b

/-- The anchor of the name that is nearest to `hint`. -/
def nearest? (name : String) (hint : Nat) (free : List Anchor) : Option Anchor :=
  (free.filter (·.name == name)).foldl
    (fun best a => some (match best with | none => a | some b => nearer hint b a)) none

/-- Claims the nearest free anchor of a name: its line, and the anchors that stay free. -/
def claim? (name : String) (hint : Nat) (free : List Anchor) : Option (Nat × List Anchor) :=
  (nearest? name hint free).map fun a => (a.line, free.filter (· != a))

end Marginalia
