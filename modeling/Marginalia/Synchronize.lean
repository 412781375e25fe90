import Marginalia.AnnotationBlock
import Marginalia.CodeUnit
import Marginalia.Ordered
import Marginalia.Synchronize.Anchors

/-!
Bringing a text and its annotations together. Every known block is taken out, each annotated unit is
set down again on its definition line, and a fresh block is put above that line. Nothing outside of
blocks changes.
-/

namespace Marginalia

open Text

/-- Why an annotated unit got no block. -/
inductive SkipReason where
  /-- No free definition line has the name of the unit. -/
  | notFound
  /-- Above the definition line stands something that looks like a block. -/
  | alreadyAnnotated
  /-- The annotation has no text. -/
  | renderFailed (detail : String)
  deriving DecidableEq, Repr

/-- The wording of a reason. -/
def SkipReason.message : SkipReason → String
  | notFound => "definition not found after stripping"
  | alreadyAnnotated => "already synchronized"
  | renderFailed detail => s!"render failed: {detail}"

/-- A unit that got no block. -/
structure SkippedUnit where
  id : UnitId
  name : String
  reason : SkipReason
  deriving DecidableEq, Repr

/-- What became of a text. -/
structure SyncOutcome where
  text : String
  /-- The text differs from the one before. -/
  changed : Bool
  /-- The units whose blocks were inserted, in the order of the blocks. -/
  inserted : List UnitId
  skipped : List SkippedUnit
  /-- The blocks that were taken out. -/
  stripped : List RemovedBlock
  deriving DecidableEq, Repr

/-- How many lines above a definition are searched unless told otherwise. -/
def defaultLookback : Nat := 10

/-- At least one line has to be searched. -/
def checkLookback (lookback : Nat) : Except String Unit :=
  if lookback = 0 then .error "look-back window must be at least one line" else .ok ()

/-- Texts that tell of a block. -/
def survivingMarks : List String := [startSentinel, metadataMark, "MADL:"]

/-- One of the `lookback` lines above the anchor tells of a block. -/
def hasSurvivingMark (lookback : Nat) (lines : List Line) (anchor : Nat) : Bool :=
  ((lines.take anchor).drop (anchor - lookback)).any fun line =>
    survivingMarks.any fun mark => occursIn mark.toList line

/-- The white space that a line starts with. -/
def leadingSpace (line : Line) : List Char := (withoutTerminator line).takeWhile isBlank

/-- The terminator of a line. -/
def terminator? (line : Line) : Option (List Char) :=
  if endsWith line ['\r', '\n'] then some ['\r', '\n']
  else if endsWith line ['\n'] then some ['\n']
  else none

/-- The terminator for a block above an anchor line: that of the line itself, or of the first line
that has one. -/
def newlineFor (lines : List Line) (anchorLine : Line) : List Char :=
  ((terminator? anchorLine).orElse fun _ => lines.findSome? terminator?).getD ['\n']

/-- A block that is to be inserted above a line. -/
structure Patch where
  anchor : Nat
  block : List Line
  id : UnitId
  deriving DecidableEq, Repr

/-- What has been decided about the annotated units so far. -/
structure Placement where
  /-- The definition lines that are not yet claimed. -/
  free : List Anchor
  /-- The blocks to insert, in the order of the units. -/
  patches : List Patch
  skipped : List SkippedUnit
  deriving DecidableEq, Repr

/-- Finds the place of one annotated unit. -/
def Placement.place (lookback : Nat) (l : Language) (s : Stripped) (p : Placement)
    (u : CodeUnit) (a : Annotation) : Placement :=
  match claim? u.name (s.shifted u.range.start) p.free with
  | none => { p with skipped := p.skipped ++ [⟨u.id, u.name, .notFound⟩] }
  | some (anchor, free) =>
    if hasSurvivingMark lookback s.lines anchor then
      { p with free := free, skipped := p.skipped ++ [⟨u.id, u.name, .alreadyAnnotated⟩] }
    else
      let line := s.lines.getD anchor []
      let block := blockLines a l (leadingSpace line) (newlineFor s.lines line)
      { p with free := free, patches := p.patches ++ [⟨anchor, block, u.id⟩] }

/-- The annotated units of a list, in the order of their lines. -/
def annotatedUnits (units : List CodeUnit) : List (CodeUnit × Annotation) :=
  sortBy (fun x y => x.1.range.start < y.1.range.start)
    (units.filterMap fun u => u.annotation.map (u, ·))

/-- Finds the places of all annotated units. -/
def placeAll (lookback : Nat) (l : Language) (s : Stripped) (units : List CodeUnit) : Placement :=
  (annotatedUnits units).foldl (fun p (u, a) => p.place lookback l s u a)
    ⟨anchorsFrom l 0 s.lines, [], []⟩

/-- The lines with every block above its anchor. -/
def weave (lines : List Line) (patches : List Patch) : List Line :=
  lines.zipIdx.flatMap fun (line, i) =>
    (patches.filter (·.anchor == i)).flatMap (·.block) ++ [line]

/-- Brings a text in step with the annotations of its units. -/
def synchronize (lookback : Nat) (text : String) (l : Language) (units : List CodeUnit) :
    SyncOutcome :=
  let s := strip l text
  let p := placeAll lookback l s units
  let output := String.ofList (weave s.lines p.patches).flatten
  { text := output
    changed := output != text
    inserted := (sortBy (fun a b => a.anchor < b.anchor) p.patches).map (·.id)
    skipped := p.skipped
    stripped := s.removed }

/-- Takes the blocks out of a text and inserts none. -/
def stripText (text : String) (l : Language) : SyncOutcome :=
  let s := strip l text
  { text := s.text
    changed := s.text != text
    inserted := []
    skipped := []
    stripped := s.removed }

/-! ### Reasons as JSON -/

namespace SkipReason

open Json

instance : Writable SkipReason :=
  ⟨fun
    | notFound => ofFields [("kind", .string "not_found")]
    | alreadyAnnotated => ofFields [("kind", .string "already_annotated")]
    | renderFailed detail =>
      ofFields [("kind", .string "render_failed"), ("detail", toJson detail)]⟩

/-- The reason of a kind with the detail that stands beside it. -/
def ofKind? (kind : String) (detail : Option Json) : Option SkipReason :=
  match kind, detail with
  | "not_found", none | "not_found", some .null => some notFound
  | "already_annotated", none | "already_annotated", some .null => some alreadyAnnotated
  | "render_failed", some (.string s) => some (renderFailed s)
  | _, _ => none

/-- A kind may be a word or the only key of an object that holds null. -/
def ofKindJson? (kind : Json) (detail : Option Json) : Option SkipReason :=
  (ofWord? some kind).bind (ofKind? · detail)

/-- A reason is an object of a kind and a detail, or an array of both. -/
instance : Readable SkipReason :=
  ⟨fun
    | array [kind, detail] => ofKindJson? kind (some detail)
    | v@(object _) => do
      let r ← record? ["kind", "detail"] v
      ofKindJson? (← r.fields.lookup "kind") (r.fields.lookup "detail")
    | _ => none⟩

end SkipReason

open Json in
instance : Writable SkippedUnit :=
  ⟨fun s => ofFields [
    ("unit_id", toJson s.id), ("name", toJson s.name), ("reason", toJson s.reason)]⟩

open Json in
instance : Readable SkippedUnit :=
  ⟨fun v => do
    let r ← record? ["unit_id", "name", "reason"] v
    return ⟨← r.field "unit_id", ← r.field "name", ← r.field "reason"⟩⟩

end Marginalia
