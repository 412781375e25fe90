import Marginalia.Text.Search
import Marginalia.Url.Escape

/-!
Paths of addresses in normal form: no segment is a dot or two. A segment of two dots takes back the
one before it, except the name of a drive; a drive that an address of a file starts with is written
with a colon.
-/

namespace Marginalia.Url

open Text

/-- A segment that stays in the same directory. -/
def isSingleDot (segment : List Char) : Bool :=
  let text := segment.map Char.toLower
  text == ['.'] || text == ['%', '2', 'e']

/-- A segment that leads a directory up. -/
def isDoubleDot (segment : List Char) : Bool :=
  ["..", ".%2e", "%2e.", "%2e%2e"].contains (String.ofList (segment.map Char.toLower))

/-- The name of a drive: a letter, and a colon or a bar. -/
def isDrive (segment : List Char) : Bool :=
  match segment with
  | [letter, mark] => letter.isAlpha && (mark = ':' || mark = '|')
  | _ => false

/-- A segment that starts with the name of a drive and a backslash, or is such a name. -/
def startsAtDrive (segment : List Char) : Bool :=
  isDrive (segment.take 2) && (segment.drop 2).head?.all (· == '\\')

/-- The segments of a path as far as it was walked, the last one first. -/
structure Trail where
  segments : List (List Char)
  /-- The path starts with a drive. -/
  onDrive : Bool

namespace Trail

/-- Takes back the last segment, unless it is a drive. -/
def back (t : Trail) : Trail :=
  match t.segments with
  | [] => t
  | last :: rest => if startsAtDrive last then t else { t with segments := rest }

/-- Enters a segment. -/
def enter (inFiles : Bool) (t : Trail) (segment : List Char) : Trail :=
  if isDoubleDot segment then t.back
  else if isSingleDot segment then t
  else if inFiles && t.segments.isEmpty && isDrive segment then ⟨[segment.take 1 ++ [':']], true⟩
  else { t with segments := segment :: t.segments }

/-- The path of a trail; behind dots it ends with a slash. -/
def text (t : Trail) (last : List Char) : List Char :=
  let segments := if isSingleDot last || isDoubleDot last then [] :: t.segments else t.segments
  segments.reverse.flatMap ('/' :: ·)

end Trail

/-- The path that text behind a slash stands for, and whether it starts with a drive. -/
def pathOf (inFiles : Bool) (text : List Char) : List Char × Bool :=
  let segments := (splitAtEach '/' text).map (escape pathExtra)
  let trail := segments.foldl (Trail.enter inFiles) ⟨[], false⟩
  let path := trail.text (segments.getLast?.getD [])
  (if inFiles then '/' :: path.dropWhile (· == '/') else path, trail.onDrive)

/-- A segment that is neither dots nor a drive is entered. -/
theorem Trail.enter_name {t : Trail} {segment : List Char} (h1 : isDoubleDot segment = false)
    (h2 : isSingleDot segment = false) (h3 : isDrive segment = false) (inFiles : Bool) :
    t.enter inFiles segment = { t with segments := segment :: t.segments } := by
  simp [enter, h1, h2, h3]

end Marginalia.Url
