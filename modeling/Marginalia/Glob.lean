import Marginalia.Text.Search

/-!
Globs: patterns for paths. A question mark stands for one byte, a star for any number of them, two
stars between slashes for any number of directories, brackets for one byte out of a class and braces
for one of several patterns. A path is compared as a whole and byte by byte.
-/

namespace Marginalia

/-- A part of a glob. -/
inductive GlobToken where
  | literal (c : Char)
  | anyByte
  | anyBytes
  /-- Two stars at the front: nothing, or any directories. -/
  | anyFront
  /-- Two stars at the end: everything below a directory. -/
  | anyBelow
  /-- Two stars between slashes: one slash, or any directories between two. -/
  | anyBetween
  /-- One byte inside the ranges, or outside of all. -/
  | oneOf (negated : Bool) (ranges : List (Char × Char))
  | either (alternatives : List (List GlobToken))

/-- A glob: its parts, and whether its wild cards reach over slashes. -/
structure Glob where
  tokens : List GlobToken
  crossing : Bool

namespace Glob

/-! ### Reading -/

/-- A class that is being read. -/
structure ClassState where
  negated : Bool
  /-- The ranges so far, the last one first. -/
  ranges : List (Char × Char)
  /-- Nothing of the class has been read but its negation. -/
  first : Bool
  /-- The last range waits for its end. -/
  unfinished : Bool

/-- A group of alternatives that is being read. -/
structure Group where
  /-- What stands in front of the group, the last part first. -/
  before : List GlobToken
  /-- The alternatives so far, the last one first. -/
  done : List (List GlobToken)

/-- A glob that is being read. -/
structure ParseState where
  /-- The open groups, the innermost first. -/
  groups : List Group
  /-- The parts of the current alternative, the last one first. -/
  current : List GlobToken
  previous : Option Char
  inClass : Option ClassState
  /-- A bracket that opens a class without an end is a character, and so are all behind it. -/
  lenient : Bool
  /-- Brackets are characters from here on. -/
  plainBrackets : Bool

namespace ParseState

/-- Nothing has been read. -/
def start (lenient : Bool) : ParseState := ⟨[], [], none, none, lenient, false⟩

/-- Adds a part, read up to the character `c`. -/
def push (s : ParseState) (t : GlobToken) (c : Char) : ParseState :=
  { s with current := t :: s.current, previous := some c }

/-- One more character of a class. -/
def inside (s : ParseState) (k : ClassState) (c : Char) : Option ParseState :=
  let go (k : ClassState) : ParseState :=
    { s with inClass := some { k with first := false }, previous := some c }
  if c = ']' && !k.first then
    let ranges := if k.unfinished then ('-', '-') :: k.ranges else k.ranges
    some { s with inClass := none, previous := some c,
                  current := .oneOf k.negated ranges.reverse :: s.current }
  else if c = '-' && !k.first && !k.unfinished then some (go { k with unfinished := true })
  else
    match k.unfinished, k.ranges with
    | true, (low, _) :: rest =>
      if c < low then none else some (go { k with ranges := (low, c) :: rest, unfinished := false })
    | _, ranges => some (go { k with ranges := (c, c) :: ranges, unfinished := false })

/-- Reads on in a class: its first character may negate it. -/
def classStep? (s : ParseState) (k : ClassState) (c : Char) : Option ParseState :=
  if k.first && k.ranges.isEmpty && !k.negated && (c == '!' || c == '^') then
    some { s with inClass := some { k with negated := true }, previous := some c }
  else s.inside k c

/-- Opens a class. -/
def openClass (s : ParseState) : ParseState :=
  { s with inClass := some ⟨false, [], true, false⟩ }

/-- The text ends inside the class that is open here. -/
def staysOpen (s : ParseState) : List Char → Bool
  | [] => s.inClass.isSome
  | c :: rest =>
    match s.inClass with
    | none => false
    | some k =>
      match s.classStep? k c with
      | some s => staysOpen s rest
      | none => false

/-- Opens a group. -/
def openGroup (s : ParseState) : ParseState :=
  { s with groups := ⟨s.current, []⟩ :: s.groups, current := [], previous := some '\x7b' }

/-- Closes the innermost group. -/
def closeGroup? (s : ParseState) : Option ParseState :=
  match s.groups with
  | [] => none
  | g :: outer =>
    let alternatives := (s.current.reverse :: g.done).reverse
    some { s with groups := outer, current := .either alternatives :: g.before,
                  previous := some '\x7d' }

/-- A comma divides alternatives inside a group and is a character outside. -/
def comma (s : ParseState) : ParseState :=
  match s.groups with
  | [] => s.push (.literal ',') ','
  | g :: outer =>
    { s with groups := ⟨g.before, s.current.reverse :: g.done⟩ :: outer, current := [],
             previous := some ',' }

/-- A part of the path starts here: behind a slash and, in a group, behind a comma or a brace. -/
def opensPart (s : ParseState) : Bool :=
  s.previous == some '/'
    || (!s.groups.isEmpty && (s.previous == some ',' || s.previous == some '\x7b'))

/-- Two stars that reach over no directory. -/
def plainStars (s : ParseState) : ParseState :=
  { s with current := .anyBytes :: .anyBytes :: s.current, previous := some '*' }

/-- Exchanges the last part for two stars at the end or between slashes; stars that stand there
already stay. -/
def starsBehindSlash (s : ParseState) (atEnd : Bool) (c : Char) : ParseState :=
  let (last, rest) := match s.current with
    | t :: rest => (some t, rest)
    | [] => (none, [])
  let t : GlobToken := match last with
    | some .anyFront => .anyFront
    | some .anyBelow => .anyBelow
    | _ => if atEnd then .anyBelow else .anyBetween
  { s with current := t :: rest, previous := some c }

end ParseState

/-- Reads the rest of a glob; there is none if a class or a group is not closed, a group is closed
that was not opened, a range runs backward or a backslash ends the text. -/
def parseFrom (s : ParseState) : List Char → Option (List GlobToken)
  | [] => if s.inClass.isSome || !s.groups.isEmpty then none else some s.current.reverse
  | c :: rest =>
    match s.inClass with
    | some k =>
      match s.classStep? k c with
      | some s => parseFrom s rest
      | none => none
    | none =>
      match c, rest with
      | '?', rest => parseFrom (s.push .anyByte '?') rest
      | '[', rest =>
        if s.plainBrackets then parseFrom (s.push (.literal '[') '[') rest
        else if s.lenient && s.openClass.staysOpen rest then
          parseFrom { s.push (.literal '[') '[' with plainBrackets := true } rest
        else parseFrom s.openClass rest
      | '\x7b', rest => parseFrom s.openGroup rest
      | '\x7d', rest =>
        match s.closeGroup? with
        | some s => parseFrom s rest
        | none => none
      | ',', rest => parseFrom s.comma rest
      | '\\', c :: rest => parseFrom (s.push (.literal c) c) rest
      | '\\', [] => none
      | '*', '*' :: rest =>
        if s.current.isEmpty then
          match rest with
          | [] => parseFrom (s.push .anyFront '*') []
          | '/' :: rest => parseFrom (s.push .anyFront '/') rest
          | rest => parseFrom s.plainStars rest
        else if !s.opensPart then parseFrom s.plainStars rest
        else
          match rest with
          | [] => parseFrom (s.starsBehindSlash true '*') []
          | '/' :: rest => parseFrom (s.starsBehindSlash false '/') rest
          | c :: rest =>
            if (c = ',' || c = '\x7d') && !s.groups.isEmpty then
              parseFrom (s.starsBehindSlash true '*') (c :: rest)
            else parseFrom s.plainStars (c :: rest)
      | '*', rest => parseFrom (s.push .anyBytes '*') rest
      | c, rest => parseFrom (s.push (.literal c) c) rest

/-- The glob that a text writes down. If it is read leniently, a bracket without an end is a
character. -/
def parse? (crossing lenient : Bool) (text : String) : Option Glob :=
  (parseFrom (.start lenient) text.toList).map (⟨·, crossing⟩)

/-! ### Matching -/

/-- The byte of a slash. -/
def slash : UInt8 := 47

/-- The bytes of a character. -/
def bytesOfChar (c : Char) : List UInt8 := (String.singleton c).toByteArray.toList

/-- The places of a path: the first one is in front of it, and every other one behind a byte. A
place is marked if what was matched so far may end there. -/
abbrev Marks := List Bool

/-- The marks behind the bytes that satisfy `p`. -/
def behind (p : UInt8 → Bool) : List UInt8 → Marks → Marks
  | b :: bytes, mark :: marks => (mark && p b) :: behind p bytes marks
  | _, _ => []

/-- Goes on by one byte that satisfies `p`. -/
def step (p : UInt8 → Bool) (bytes : List UInt8) (marks : Marks) : Marks :=
  false :: behind p bytes marks

/-- Goes on by any number of bytes that satisfy `p`; `reached` says whether the first place can be
reached by them. -/
def spread (p : UInt8 → Bool) (reached : Bool) : List UInt8 → Marks → Marks
  | b :: bytes, mark :: marks =>
    (reached || mark) :: spread p ((reached || mark) && p b) bytes marks
  | [], mark :: _ => [reached || mark]
  | _, [] => []

/-- The places that are marked in one of two ways. -/
def union (marks others : Marks) : Marks := List.zipWith (· || ·) marks others

/-- Stays, or goes on to a place behind a slash. -/
def passDirectories (bytes : List UInt8) (marks : Marks) : Marks :=
  union marks (step (· == slash) bytes (spread (fun _ => true) false bytes marks))

/-- A byte is in a range of characters. A range of one character holds its bytes; any other range
runs from the last byte of its first character to the first byte of its last one, and holds the
bytes around. -/
def rangeHas (b : UInt8) (range : Char × Char) : Bool :=
  let low := bytesOfChar range.1
  let high := bytesOfChar range.2
  if range.1 = range.2 then low.contains b
  else
    low.dropLast.contains b || high.tail.contains b
      || ((low.getLast?.getD 0) ≤ b && b ≤ (high.head?.getD 0))

mutual
/-- The part stands for no bytes whatever, because it offers no alternative. -/
def isVacuous : GlobToken → Bool
  | .either alternatives => allVacuous alternatives
  | _ => false

/-- Every part of an alternative is vacuous. -/
def isVacuousList : List GlobToken → Bool
  | [] => true
  | t :: rest => isVacuous t && isVacuousList rest

/-- Every alternative is vacuous. -/
def allVacuous : List (List GlobToken) → Bool
  | [] => true
  | alternative :: rest => isVacuousList alternative && allVacuous rest
end

mutual
/-- The places to which a part leads. -/
def runToken (crossing : Bool) (bytes : List UInt8) : GlobToken → Marks → Marks
  | .literal c, marks => (bytesOfChar c).foldl (fun marks b => step (· == b) bytes marks) marks
  | .anyByte, marks => step (fun b => crossing || b != slash) bytes marks
  | .anyBytes, marks => spread (fun b => crossing || b != slash) false bytes marks
  | .anyFront, marks => passDirectories bytes marks
  | .anyBelow, marks => spread (fun _ => true) false bytes (step (· == slash) bytes marks)
  | .anyBetween, marks => passDirectories bytes (step (· == slash) bytes marks)
  | .oneOf negated ranges, marks => step (fun b => ranges.any (rangeHas b) != negated) bytes marks
  | .either alternatives, marks =>
    if allVacuous alternatives then marks else runEither crossing bytes alternatives marks

/-- The places to which parts lead one behind the other. -/
def runTokens (crossing : Bool) (bytes : List UInt8) : List GlobToken → Marks → Marks
  | [], marks => marks
  | t :: rest, marks => runTokens crossing bytes rest (runToken crossing bytes t marks)

/-- The places to which one of several alternatives leads that stand for something. -/
def runEither (crossing : Bool) (bytes : List UInt8) : List (List GlobToken) → Marks → Marks
  | [], marks => marks.map fun _ => false
  | alternative :: rest, marks =>
    let others := runEither crossing bytes rest marks
    if isVacuousList alternative then others
    else union (runTokens crossing bytes alternative marks) others
end

/-- The glob is two stars and nothing else. -/
def isEverything (g : Glob) : Bool :=
  match g.tokens with
  | [.anyFront] => true
  | _ => false

/-- The glob matches the whole path. -/
def accepts (g : Glob) (path : String) : Bool :=
  let bytes := path.toByteArray.toList
  let front : Marks := true :: bytes.map fun _ => false
  g.isEverything || (runTokens g.crossing bytes g.tokens front).getLast? == some true

/-- A step leads to as many places as there were. -/
theorem length_step {p : UInt8 → Bool} {bytes : List UInt8} {marks : Marks}
    (h : marks.length = bytes.length + 1) : (step p bytes marks).length = bytes.length + 1 := by
  have aux : ∀ (bytes : List UInt8) (marks : Marks), marks.length = bytes.length + 1 →
      (behind p bytes marks).length = bytes.length := by
    intro bytes
    induction bytes with
    | nil => intro marks _; cases marks <;> rfl
    | cons b bytes ih =>
      intro marks h
      match marks, h with
      | m :: marks, h => simpa [behind] using ih marks (by simpa using h)
  simp [step, aux bytes marks h]

end Glob

end Marginalia
