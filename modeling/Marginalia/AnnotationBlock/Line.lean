import Marginalia.SourceLanguage
import Marginalia.Text.Lines
import Marginalia.Text.Search

/-!
The lines that annotation blocks are made of. A block consists of comment lines; some of them are
sentinels, which open or close a block. Whatever is neither blank nor a comment is code, and code is
never part of a block.
-/

namespace Marginalia

open Text

/-- Opens a block. -/
def startSentinel : String := "--- MADL ---"

/-- Closes a block. -/
def endSentinel : String := "--- END MADL ---"

/-- Opens a block of the metadata layout. -/
def metadataSentinel : String := "====== MADL_METADATA ======"

/-- The word by which a line of equal signs opens a metadata block. -/
def metadataMark : String := "MADL_METADATA"

/-- The role of a comment line that opens or closes a block. -/
inductive Sentinel where
  | start | stop | metadata | separator
  deriving DecidableEq, Repr

/-- What a line is to the block around it. -/
inductive LineKind where
  | blank
  | comment (role : Option Sentinel)
  | code
  deriving DecidableEq, Repr

/-- A line without line feeds and carriage returns at its end. -/
def withoutTerminator (line : Line) : Line := dropTrailing (fun c => c == '\r' || c == '\n') line

/-- The text behind the comment mark of a line and one space. The mark of the language counts, and
everywhere a hash sign that stands alone or has a space behind it, so that directives stay code. -/
def commentBody? (l : Language) (line : Line) : Option Line :=
  let visible := withoutTerminator (trimStart line)
  let rest? :=
    match dropFront? l.commentMark visible with
    | some rest => some rest
    | none => (dropFront? ['#'] visible).filter fun rest => rest.isEmpty || rest.head? == some ' '
  rest?.map fun rest =>
    match rest with
    | ' ' :: body => body
    | body => body

/-- The role of a comment with this text. -/
def sentinelOf? (body : Line) : Option Sentinel :=
  if body = startSentinel.toList then some .start
  else if body = endSentinel.toList then some .stop
  else if body.head? == some '=' && occursIn metadataMark.toList body then some .metadata
  else if "=====".toList.isPrefixOf body then some .separator
  else none

/-- What a line is in a language. -/
def LineKind.of (l : Language) (line : Line) : LineKind :=
  if allBlank line then .blank
  else match commentBody? l line with
    | some body => .comment (sentinelOf? (trim body))
    | none => .code

/-- The line is a comment, sentinel or not. -/
def LineKind.isComment : LineKind → Bool
  | comment _ => true
  | _ => false

/-- The role of a line. -/
def LineKind.role : LineKind → Option Sentinel
  | comment role => role
  | _ => none

theorem LineKind.of_blank {l : Language} {line : Line} (h : allBlank line = true) :
    LineKind.of l line = .blank := by
  simp [LineKind.of, h]

end Marginalia
