import Marginalia.Enrichment.Question
import Marginalia.Enrichment.Reply
import Marginalia.Json.Record
import Marginalia.Number.Binary
import Marginalia.Service
import Marginalia.Url

/-!
The language model that judges and describes units: how it is reached, and what is asked of it.
-/

namespace Marginalia

/-- How a language model is reached. -/
structure ModelConfig where
  baseUrl : String := "https://api.openai.com/v1"
  model : String := "gpt-4o-mini"
  /-- Without a key there is no client. -/
  apiKey : Option String := none
  timeoutSeconds : Nat := 60
  temperature : Single := .zero
  deriving DecidableEq, Repr

namespace ModelConfig

open Json

/-- The key is never written down. -/
instance : Writable ModelConfig :=
  ⟨fun c => ofFields [
    ("base_url", toJson c.baseUrl), ("model", toJson c.model),
    ("timeout_secs", toJson c.timeoutSeconds), ("temperature", toJson c.temperature)]⟩

instance : Readable ModelConfig :=
  ⟨fun v => do
    let r ← record? ["base_url", "model", "api_key", "timeout_secs", "temperature"] v
    let standard : ModelConfig := {}
    return {
      baseUrl := ← r.fieldOr "base_url" standard.baseUrl
      model := ← r.fieldOr "model" standard.model
      apiKey := ← r.fieldOr "api_key" standard.apiKey
      timeoutSeconds := ← r.fieldOr "timeout_secs" standard.timeoutSeconds
      temperature := ← r.fieldOr "temperature" standard.temperature }⟩

/-- A configuration that can be used names a service and a model and waits for an answer. -/
def check (c : ModelConfig) : Except ServiceError Unit :=
  if Text.isBlankString c.baseUrl then .error (.invalidConfig "llm.base_url is empty")
  else if Text.isBlankString c.model then .error (.invalidConfig "llm.model is empty")
  else if c.timeoutSeconds = 0 then .error (.invalidConfig "llm.timeout_secs must be > 0")
  else .ok ()

end ModelConfig

/-- A question to a language model. -/
structure ModelRequest where
  url : String
  apiKey : String
  model : String
  temperature : Single
  prompt : String

/-- What comes back from a service that was reached. -/
structure ModelReply where
  status : Nat
  body : String

/-- The way to a service: its reply, or why it was not reached. -/
abbrev Transport := ModelRequest → Except String ModelReply

/-- There is no way to any service. -/
def Transport.none : Transport := fun r => .error s!"error sending request for url ({r.url})"

/-- A language model that can be asked. -/
structure ModelClient where
  config : ModelConfig
  apiKey : String
  transport : Transport

namespace ModelClient

/-- The name of the model service. -/
def name : String := "llm"

/-- The client of a configuration; there is none without a visible key. -/
def of (c : ModelConfig) (transport : Transport) : Except ServiceError (Option ModelClient) := do
  c.check
  match c.apiKey with
  | some key => return if Text.isBlankString key then none else some ⟨c, key, transport⟩
  | none => return none

/-- Where completions are asked for. -/
def endpoint (c : ModelClient) : String :=
  String.ofList (Text.dropTrailing (· == '/') c.config.baseUrl.toList) ++ "/chat/completions"

open Json in
/-- A field of a value that is read from a reply. -/
def fieldOf? (name : String) : Json → Option Json
  | object fields => (fields.reverse.find? (·.1 == some name)).map (·.2)
  | _ => none

open Json in
/-- The text of the first choice in a reply. -/
def contentOf? (v : Json) : Option String := do
  let choices ← fieldOf? "choices" v
  let first ← match choices with
    | array (c :: _) => some c
    | _ => none
  let message ← fieldOf? "message" first
  ofJson? (← fieldOf? "content" message)

/-- A key that can be sent along: it has no control characters other than tabs. -/
def isSendable (key : String) : Bool :=
  key.toList.all fun c => c = '\t' || (c.toNat ≥ 32 && c.toNat != 127)

/-- A request can go to the address: it leads to the web, is of limited length, and its host has
none of the characters that hosts have in addresses alone. -/
def isAskable (url : Url) : Bool :=
  (url.scheme == "http" || url.scheme == "https") && url.text.utf8ByteSize < 65535
    && url.authority.all fun a => !a.host.any ['"', '\x60', '\x7b', '\x7d'].contains

/-- The address of a request, without credentials. Only hosts of the web can be asked, and only
with a key that can be sent along. -/
def target (c : ModelClient) : Except ServiceError Url := do
  let some url := Url.parse? c.endpoint | throw (.http "builder error")
  if !url.hasHost then throw (.http s!"builder error for url ({url.text})")
  if !isSendable c.apiKey then throw (.http "builder error")
  let url := url.withoutCredentials
  if !isAskable url then throw (.http s!"builder error for url ({url.text})")
  return url

/-- Asks a question: the text of the first choice. -/
def complete (c : ModelClient) (prompt : String) : Except ServiceError String := do
  let url ← c.target
  let reply ← (c.transport {
    url := url.text, apiKey := c.apiKey, model := c.config.model,
    temperature := c.config.temperature, prompt := prompt }).mapError .http
  if reply.status < 200 || reply.status ≥ 300 then throw (.status reply.status reply.body)
  let some v := Json.parse? reply.body | throw (.http "error decoding response body")
  match contentOf? v with
  | some text => return text
  | none => throw (.malformed "missing choices[0].message.content")

/-- The model as a judge of units. -/
def judge (c : ModelClient) : Service Verdict := fun _ u =>
  .ofExcept ((c.complete u.reuseQuestion).bind verdictOfReply)

/-- The model as a describer of units. -/
def describe (c : ModelClient) : Service Annotation := fun _ u =>
  .ofExcept ((c.complete u.annotationQuestion).bind annotationOfReply)

end ModelClient

end Marginalia
