import Marginalia.LinePattern
import Marginalia.Service
import Marginalia.Text.Blank
import Marginalia.Text.Word

/-!
Reading what a service replied. A reply is JSON, perhaps inside a code fence; the fence and the
white space around it say nothing.
-/

namespace Marginalia

open Text

/-- Opens and closes a code fence. -/
def fenceMark : List Char := ['\x60', '\x60', '\x60']

/-- A reply that is one code fence: the mark with the name of a language, group 1, and the mark
again, with white space anywhere between them. The group ends in front of the first mark that ends
the reply. -/
def fence : Pattern := .all [
  .span isBlank, .text fenceMark, .span isLetter, .span isBlank,
  .group 1 (.frugal fun _ => true), .span isBlank, .text fenceMark, .span isBlank, .atEnd]

/-- A reply without the white space and the code fence around it. -/
def stripFence (reply : String) : String :=
  match fence.captures? reply.toList with
  | some found => found.get 1
  | none => trimmed reply

/-- What a reply says on whether a unit can be reused. -/
structure ReuseReply where
  reusable : Bool
  reason : Option String
  confidence : Option Single

open Json in
instance : Readable ReuseReply :=
  ⟨fun v => do
    let r ← record? ["reusable", "reusability_reason", "confidence"] v
    return ⟨← r.field "reusable", ← r.fieldOr "reusability_reason" none,
      ← r.fieldOr "confidence" none⟩⟩

/-- The verdict that a reply holds. -/
def verdictOfReply (reply : String) : Except ServiceError Verdict :=
  match Json.readText? ReuseReply (stripFence reply) with
  | some r =>
    .ok (.of r.reusable (r.reason.getD "No reason provided") (r.confidence.getD .half) .model)
  | none => .error (.malformed "reusability reply")

/-- The annotation that a reply holds; one that names neither a method nor an intent says nothing.
-/
def annotationOfReply (reply : String) : Except ServiceError Annotation :=
  match Json.readText? Annotation (stripFence reply) with
  | some a =>
    if a.methodName == "" && a.intent == "" then
      .error (.malformed "annotation reply has no content")
    else .ok a
  | none => .error (.malformed "annotation reply")

end Marginalia
