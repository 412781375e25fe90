import Marginalia.Json.Record

/-!
Annotations: what is written above a definition about it.
-/

namespace Marginalia

/-- What an annotation block says about a definition. -/
structure Annotation where
  methodName : String
  className : String
  intent : String
  description : String
  keywords : List String
  parameters : String
  code : String
  deriving DecidableEq, Repr, Inhabited

namespace Annotation

open Json

/-- The names of the written fields, in their order. -/
def fieldNames : List String :=
  ["method_name", "class_name", "intent", "semantic_description", "keywords", "parameters",
    "method_code"]

instance : Writable Annotation :=
  ⟨fun a => ofFields [
    ("method_name", toJson a.methodName), ("class_name", toJson a.className),
    ("intent", toJson a.intent), ("semantic_description", toJson a.description),
    ("keywords", toJson a.keywords), ("parameters", toJson a.parameters),
    ("method_code", toJson a.code)]⟩

/-- Every field may be missing, and every text may be null. -/
instance : Readable Annotation :=
  ⟨fun v => do
    let r ← record? fieldNames v
    return {
      methodName := ← r.textOrEmpty "method_name"
      className := ← r.textOrEmpty "class_name"
      intent := ← r.textOrEmpty "intent"
      description := ← r.textOrEmpty "semantic_description"
      keywords := ← r.fieldOr "keywords" []
      parameters := ← r.textOrEmpty "parameters"
      code := ← r.textOrEmpty "method_code" }⟩

end Annotation

end Marginalia
