import Marginalia.Json.Record

/-!
Ranges of lines. A range holds the lines from its start up to, but not including, its stop, counted
from zero.
-/

namespace Marginalia

/-- The lines from `start` up to and without `stop`. -/
structure LineRange where
  start : Nat
  stop : Nat
  deriving DecidableEq, Repr, Inhabited

namespace LineRange

/-- A range that has a line; there is none if the bounds do not leave one. -/
def ofBounds? (start stop : Nat) : Option LineRange :=
  if start < stop then some ⟨start, stop⟩ else none

/-- How many lines the range has. -/
def size (r : LineRange) : Nat := r.stop - r.start

/-- The range has no line. -/
def isEmpty (r : LineRange) : Bool := r.stop ≤ r.start

/-- The number of the first line, counted from one. -/
def firstLine (r : LineRange) : Nat := r.start + 1

/-- The range has the line. -/
def contains (r : LineRange) (line : Nat) : Bool := r.start ≤ line && line < r.stop

/-- Two ranges, neither of them empty, share a line. -/
def overlaps (r other : LineRange) : Bool := r.start < other.stop && other.start < r.stop

theorem contains_iff (r : LineRange) (line : Nat) :
    r.contains line = true ↔ r.start ≤ line ∧ line < r.stop := by
  simp [contains]

theorem isEmpty_iff_size_eq_zero (r : LineRange) : r.isEmpty = true ↔ r.size = 0 := by
  simp [isEmpty, size]; omega

open Json in
instance : Writable LineRange :=
  ⟨fun r => ofFields [("start", toJson r.start), ("end", toJson r.stop)]⟩

open Json in
instance : Readable LineRange :=
  ⟨fun v => do
    let r ← record? ["start", "end"] v
    return ⟨← r.field "start", ← r.field "end"⟩⟩

end LineRange

end Marginalia
