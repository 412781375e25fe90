import Marginalia.AnnotationBlock.Line

/-!
Block formats. A format is a way to open a block together with a way to end it. The formats are
tried in a fixed order at each line that opens a block, and the first one that finds its end wins. A
line of code ends every search, so no format reaches over code.
-/

namespace Marginalia

/-- How a block ends. -/
inductive EndCondition where
  /-- At an end sentinel, comments alone before it. -/
  | sentinel
  /-- At an end sentinel, blank lines before it allowed and those behind it included. -/
  | paddedSentinel
  /-- At a separator, comments alone before it. -/
  | separator
  /-- With the last of the comment lines that follow each other. -/
  | commentRun
  /-- With its first line. -/
  | sameLine
  deriving DecidableEq, Repr

/-- A layout of annotation blocks. -/
inductive BlockFormat where
  /-- The layout that is written. -/
  | delimited
  /-- The same with blank lines in it. -/
  | paddedDelimited
  /-- A block that is not closed. -/
  | openJson
  /-- Between lines of equal signs. -/
  | metadata
  /-- A metadata block that is not closed. -/
  | openMetadata
  /-- An end without a block. -/
  | strayEnd
  deriving DecidableEq, Repr

namespace EndCondition

/-- The word under which an end condition is written down. -/
def name : EndCondition → String
  | sentinel => "sentinel"
  | paddedSentinel => "padded_sentinel"
  | separator => "separator"
  | commentRun => "comment_run"
  | sameLine => "same_line"

/-- The end condition with this name. -/
def ofName? (s : String) : Option EndCondition :=
  [sentinel, paddedSentinel, separator, commentRun, sameLine].find? (·.name == s)

instance : Json.Writable EndCondition := ⟨fun e => .string e.name⟩
instance : Json.Readable EndCondition := ⟨Json.ofWord? ofName?⟩

end EndCondition

namespace BlockFormat

/-- All formats, in the order in which they are tried. -/
def all : List BlockFormat :=
  [delimited, paddedDelimited, openJson, metadata, openMetadata, strayEnd]

/-- The word under which a format is written down. -/
def name : BlockFormat → String
  | delimited => "delimited"
  | paddedDelimited => "padded_delimited"
  | openJson => "open_json"
  | metadata => "metadata"
  | openMetadata => "open_metadata"
  | strayEnd => "stray_end"

/-- The format with this name. -/
def ofName? (s : String) : Option BlockFormat := all.find? (·.name == s)

instance : Json.Writable BlockFormat := ⟨fun f => .string f.name⟩
instance : Json.Readable BlockFormat := ⟨Json.ofWord? ofName?⟩

/-- The name of a format in a message. -/
def title : BlockFormat → String
  | delimited => "Delimited"
  | paddedDelimited => "PaddedDelimited"
  | openJson => "OpenJson"
  | metadata => "Metadata"
  | openMetadata => "OpenMetadata"
  | strayEnd => "StrayEnd"

/-- The role of the line that opens a block of the format. -/
def opener : BlockFormat → Sentinel
  | delimited | paddedDelimited | openJson => .start
  | metadata | openMetadata => .metadata
  | strayEnd => .stop

/-- How a block of the format ends. -/
def endCondition : BlockFormat → EndCondition
  | delimited => .sentinel
  | paddedDelimited => .paddedSentinel
  | metadata => .separator
  | openJson | openMetadata => .commentRun
  | strayEnd => .sameLine

/-- The text of the line that opens a block of the format. -/
def sentinelText : BlockFormat → String
  | delimited | paddedDelimited | openJson => startSentinel
  | metadata | openMetadata => metadataSentinel
  | strayEnd => endSentinel

/-- The format is read but no longer written. -/
def isLegacy : BlockFormat → Bool
  | delimited => false
  | _ => true

/-- The number of lines up to the first one with the role, comments alone before it. -/
def lengthTo (closer : Sentinel) : List LineKind → Option Nat
  | .comment role :: rest =>
    if role = some closer then some 1 else (lengthTo closer rest).map (· + 1)
  | _ => none

/-- The number of lines up to the first end sentinel, with the blank lines behind it; comments and
blank lines alone before it. -/
def paddedLength : List LineKind → Option Nat
  | .comment (some .stop) :: rest => some (1 + (rest.takeWhile (· == .blank)).length)
  | .comment _ :: rest | .blank :: rest => (paddedLength rest).map (· + 1)
  | _ => none

/-- The number of lines that belong to a block behind its first line. -/
def lengthBy (e : EndCondition) (rest : List LineKind) : Option Nat :=
  match e with
  | .sameLine => some 0
  | .commentRun => some (rest.takeWhile (·.isComment)).length
  | .sentinel => lengthTo .stop rest
  | .separator => lengthTo .separator rest
  | .paddedSentinel => paddedLength rest

/-- The length of a block of the format that starts with the first of these lines. -/
def length? (f : BlockFormat) : List LineKind → Option Nat
  | [] => none
  | kind :: rest =>
    if kind.role = some f.opener then (lengthBy f.endCondition rest).map (· + 1) else none

/-- The format and the length of the block that starts with the first of these lines. -/
def recognize? (kinds : List LineKind) : Option (BlockFormat × Nat) :=
  all.findSome? fun f => (f.length? kinds).map (f, ·)

/-- A block has at least the line that opens it. -/
theorem length?_pos {f : BlockFormat} {kinds : List LineKind} {n : Nat}
    (h : f.length? kinds = some n) : 0 < n := by
  cases kinds with
  | nil => simp [length?] at h
  | cons kind rest =>
    rw [length?] at h
    split at h
    · obtain ⟨m, _, rfl⟩ := Option.map_eq_some_iff.1 h
      exact Nat.succ_pos m
    · exact absurd h (by simp)

theorem recognize?_pos {kinds : List LineKind} {f : BlockFormat} {n : Nat}
    (h : recognize? kinds = some (f, n)) : 0 < n := by
  obtain ⟨g, _, hg⟩ := List.exists_of_findSome?_eq_some h
  obtain ⟨m, hm, he⟩ := Option.map_eq_some_iff.1 hg
  cases he
  exact length?_pos hm

end BlockFormat

end Marginalia
