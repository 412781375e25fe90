import Marginalia.LocalRules
import Marginalia.Task

/-!
Enriching units. Each unit is judged, and described if it can be reused. A service is asked while
the budget lasts; whenever it does not answer, the local rules stand in for it.
-/

namespace Marginalia

/-- The services that judge and describe units, as far as there are any. -/
structure Enricher where
  judge : Option (Service Verdict)
  describe : Option (Service Annotation)

/-- Where the verdict and the annotation of a unit come from. -/
structure EnrichReport where
  judgedBy : Source
  /-- There is none for a unit that is not described. -/
  describedBy : Option Source
  /-- The failures for which the local rules stood in. -/
  errors : List String
  deriving DecidableEq, Repr

/-- What has been obtained for a unit, and from where. -/
structure Obtained (α : Type) where
  value : α
  source : Source
  errors : List String

/-- Obtains something by a call, or from a local rule where there is none to make, none may be made
or the call fails. -/
def obtain {α : Type} (call : Option (Task (Except ServiceError α))) (label : String)
    (rule : Source → α) : Task (Obtained α) :=
  match call with
  | none => .done ⟨rule .heuristic, .heuristic, []⟩
  | some call => do
    if ← Task.spend then
      match ← call with
      | .ok a => return ⟨a, .model, []⟩
      | .error e => return ⟨rule .heuristic, .heuristic, [s!"{label}: {e.message}"]⟩
    else return ⟨rule .quotaFallback, .quotaFallback, []⟩

namespace Enricher

/-- No service is ever asked. -/
def heuristicOnly : Enricher := ⟨none, none⟩

/-- There is a service. -/
def hasModel (e : Enricher) : Bool := e.judge.isSome || e.describe.isSome

/-- Obtains a verdict on a unit. -/
def obtainVerdict (e : Enricher) (u : CodeUnit) : Task (Obtained Verdict) :=
  obtain (e.judge.map fun ask => Task.once (.judge ask u)) "classify" (LocalRules.verdict u)

/-- Obtains an annotation of a unit. -/
def obtainAnnotation (e : Enricher) (u : CodeUnit) : Task (Obtained Annotation) :=
  obtain (e.describe.map fun ask => Task.once (.describe ask u)) "annotate"
    fun _ => LocalRules.annotation u

/-- Judges a unit and, if it can be reused, describes it. -/
def enrich (e : Enricher) (u : CodeUnit) : Task (CodeUnit × EnrichReport) := do
  let v ← e.obtainVerdict u
  let u := { u with verdict := some { v.value with source := v.source } }
  if v.value.reusable then
    let a ← e.obtainAnnotation u
    return ({ u with annotation := some a.value }, ⟨v.source, some a.source, v.errors ++ a.errors⟩)
  else return ({ u with annotation := none }, ⟨v.source, none, v.errors⟩)

end Enricher

end Marginalia
