import Marginalia.CodeUnit

/-!
Services: what judges a unit, describes it or takes it into an index. A call may answer, fail or
crash, and before that it may ask for the run to stop or touch files.
-/

namespace Marginalia

/-- Why a service call failed. -/
inductive ServiceError where
  | http (reason : String)
  | status (code : Nat) (body : String)
  | malformed (reason : String)
  | io (reason : String)
  | invalidConfig (reason : String)
  deriving DecidableEq, Repr

/-- The wording of a failure. -/
def ServiceError.message : ServiceError → String
  | http reason => s!"HTTP error: {reason}"
  | status code body => s!"Service returned status {code}: {body}"
  | malformed reason => s!"Malformed response: {reason}"
  | io reason => s!"IO error: {reason}"
  | invalidConfig reason => s!"Invalid configuration: {reason}"

/-- How a call ends. -/
inductive CallResult (α : Type) where
  | answer (a : α)
  | failure (e : ServiceError)
  | crash (message : String)

/-- A change that a call makes to a file. -/
inductive Edit where
  | append (path text : String)
  | delete (path : String)
  deriving DecidableEq, Repr

/-- All that a call does. -/
structure Response (α : Type) where
  /-- The call asks for the run to stop. -/
  cancels : Bool
  edits : List Edit
  result : CallResult α

/-- A service for units: what it does when it is called, given how many calls of services were made
before. -/
abbrev Service (α : Type) := (calls : Nat) → CodeUnit → Response α

/-- A call that does nothing but end. -/
def Response.of {α : Type} (result : CallResult α) : Response α := ⟨false, [], result⟩

/-- A call that ends in a value or an error. -/
def Response.ofExcept {α : Type} : Except ServiceError α → Response α
  | .ok a => .of (.answer a)
  | .error e => .of (.failure e)

end Marginalia
