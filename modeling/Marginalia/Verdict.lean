import Marginalia.Json.Record

/-!
Verdicts: whether a definition can be reused, why, and who says so.
-/

namespace Marginalia

/-- Where a verdict or an annotation comes from. -/
inductive Source where
  /-- The service answered. -/
  | model
  /-- There is no service, or its call failed; the local rule stands in. -/
  | heuristic
  /-- The budget of calls was spent; the local rule stands in. -/
  | quotaFallback
  deriving DecidableEq, Repr, Inhabited

/-- The service did not answer. -/
def Source.isFallback : Source → Bool
  | model => false
  | _ => true

/-- The word under which a source is written down. -/
def Source.name : Source → String
  | model => "model"
  | heuristic => "heuristic"
  | quotaFallback => "quota_fallback"

/-- The source with this name. -/
def Source.ofName? (s : String) : Option Source :=
  [model, heuristic, quotaFallback].find? (·.name == s)

instance : Json.Writable Source := ⟨fun s => .string s.name⟩
instance : Json.Readable Source := ⟨Json.ofWord? Source.ofName?⟩

/-- Whether a definition can be reused. -/
structure Verdict where
  reusable : Bool
  reason : String
  /-- From zero to one. -/
  confidence : Single
  source : Source
  deriving DecidableEq, Repr, Inhabited

/-- A verdict whose confidence is forced into the interval from zero to one. -/
def Verdict.of (reusable : Bool) (reason : String) (confidence : Single) (source : Source) :
    Verdict :=
  ⟨reusable, reason, confidence.toUnitInterval, source⟩

open Json in
instance : Writable Verdict :=
  ⟨fun v => ofFields [
    ("reusable", toJson v.reusable), ("reason", toJson v.reason),
    ("confidence", toJson v.confidence), ("source", toJson v.source)]⟩

open Json in
instance : Readable Verdict :=
  ⟨fun v => do
    let r ← record? ["reusable", "reason", "confidence", "source"] v
    return ⟨← r.field "reusable", ← r.field "reason", ← r.field "confidence", ← r.field "source"⟩⟩

end Marginalia
