import Marginalia.LocalRules

/-!
What is asked about a unit, and the text by which the index finds it.
-/

namespace Marginalia

/-- Texts with commas between them. -/
def commaList (ss : List String) : String := ", ".intercalate ss

namespace CodeUnit

/-- How many neighbours a question names. -/
def namedNeighbours : Nat := 5

/-- The question whether a unit can be reused. -/
def reuseQuestion (u : CodeUnit) : String :=
  let calls := commaList (u.callsOut.take namedNeighbours)
  let callers := commaList ((u.callsIn.take namedNeighbours).map (·.text))
  "\n".intercalate [
    "Analyze if this method is reusable across different contexts.",
    "",
    s!"Method: {u.name}",
    s!"Signature: {u.signature}",
    s!"Language: {u.language.name}",
    "Source Code:",
    "\x60\x60\x60",
    excerpt 1000 u.body,
    "\x60\x60\x60",
    "",
    s!"Calls: {calls}",
    s!"Called by: {callers}",
    "",
    "Consider these factors:",
    "1. Does it have side effects (file I/O, network, database)?",
    "2. Is it parameterized and context-independent?",
    "3. Is it stateless or has minimal state dependencies?",
    "4. Can it be used in different scenarios without modification?",
    "5. Does it have clear inputs and outputs?",
    "",
    "Respond with ONLY valid JSON (no markdown, no explanation):",
    "\x7b",
    "  \"reusable\": true or false,",
    "  \"reusability_reason\": \"brief explanation in one sentence\",",
    "  \"confidence\": 0.0 to 1.0",
    "\x7d"]

/-- The question what a unit does. -/
def annotationQuestion (u : CodeUnit) : String :=
  let scope := u.scope.getD ""
  "\n".intercalate [
    "Generate a JSON object with EXACTLY these fields:",
    "",
    "\x7b",
    "    \"method_name\": \"\",",
    "    \"class_name\": \"\",",
    "    \"intent\": \"\",",
    "    \"semantic_description\": \"\",",
    "    \"keywords\": [],",
    "    \"parameters\": \"\",",
    "    \"method_code\": \"\"",
    "\x7d",
    "",
    "Rules:",
    "- Do NOT add extra fields",
    "- Do NOT add agents, triggers, confidence or metadata",
    "- Fill values based ONLY on the method",
    "",
    "Respond with ONLY valid JSON.",
    "",
    s!"Method Name: {u.name}",
    s!"Class Name: {scope}",
    s!"Parameters: {u.signature}",
    "Method Code:",
    u.body,
    ""]

/-- The text under which a unit is looked for in the index. -/
def embeddingText (u : CodeUnit) : String :=
  let intent := (u.annotation.map (·.intent)).getD ""
  let description := (u.annotation.map (·.description)).getD ""
  let keywords := commaList ((u.annotation.map (·.keywords)).getD [])
  let reason := (u.verdict.map (·.reason)).getD ""
  let scope := u.scope.getD ""
  let source := excerpt 300 u.body
  "\n".intercalate [
    s!"Method: {u.name}",
    s!"Class: {scope}",
    s!"Language: {u.language.name}",
    s!"Signature: {u.signature}",
    s!"Intent: {intent}",
    s!"Description: {description}",
    s!"Keywords: {keywords}",
    s!"Reusability: {reason}",
    s!"Source: {source}",
    ""]

end CodeUnit

end Marginalia
