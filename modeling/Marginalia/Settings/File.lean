import Marginalia.RunConfig
import Marginalia.Toml.Parse

/-!
The settings of a run in a TOML document. Every setting may be missing and then keeps its standard
value; settings that are not known are passed over.
-/

namespace Marginalia

namespace Toml

/-- A text. -/
def text? : Toml → Option String
  | string s => some s
  | _ => none

/-- A count. -/
def count? : Toml → Option Nat
  | integer n => n.toNat?
  | _ => none

/-- A truth value. -/
def flag? : Toml → Option Bool
  | boolean b => some b
  | _ => none

/-- A number, rounded to thirty-two bits. -/
def single? : Toml → Option Single
  | float x => some (x.toFormat .single)
  | integer n => some (Binary.ofQuotient .single (n < 0) n.natAbs 1)
  | _ => none

/-- A list of texts. -/
def texts? : Toml → Option (List String)
  | array items => items.mapM text?
  | _ => none

/-- The fields of a table. -/
def fieldsOf? : Toml → Option Fields
  | table _ fields => some fields
  | inline fields => some fields
  | _ => none

/-- The value has no parts, though it could have some. -/
def isHollow : Toml → Bool
  | array [] => true
  | v => (v.fieldsOf?.map (·.isEmpty)).getD false

/-- A language, by its name alone or as the only key of a table that holds nothing. -/
def language? : Toml → Option Language
  | string s => Language.ofName? s
  | v => do
    match ← v.fieldsOf? with
    | [(name, held)] => if held.isHollow then Language.ofName? name else none
    | _ => none

/-- Languages by extension. -/
def languages? (v : Toml) : Option (List (String × Language)) := do
  (← v.fieldsOf?).foldlM (fun m (k, v) => do return Json.insertKey k (← v.language?) m) []

/-- The fields of a record with these names: a table, or an array of its first fields in order. A
moment is read as a record without any of them. -/
def record? (names : List String) : Toml → Option Fields
  | array items => some (names.zip items)
  | moment => some []
  | v => v.fieldsOf?

/-- A field of a record, with a value of its own where it is missing. -/
def fieldOr {α : Type} (fields : Fields) (name : String) (read : Toml → Option α) (standard : α) :
    Option α :=
  match fields.lookup name with
  | some v => read v
  | none => some standard

end Toml

open Toml

/-- Reads segmentation options. -/
def SegmentOptions.ofToml? (v : Toml) : Option SegmentOptions := do
  let r ← record? ["brace_matching", "brace_lookahead", "skip_private_calls"] v
  let standard : SegmentOptions := {}
  return {
    braceMatching := ← fieldOr r "brace_matching" flag? standard.braceMatching
    braceLookahead := ← fieldOr r "brace_lookahead" count? standard.braceLookahead
    skipPrivateCalls := ← fieldOr r "skip_private_calls" flag? standard.skipPrivateCalls }

/-- Reads how the model is reached. -/
def ModelConfig.ofToml? (v : Toml) : Option ModelConfig := do
  let r ← record? ["base_url", "model", "api_key", "timeout_secs", "temperature"] v
  let standard : ModelConfig := {}
  return {
    baseUrl := ← fieldOr r "base_url" text? standard.baseUrl
    model := ← fieldOr r "model" text? standard.model
    apiKey := ← fieldOr r "api_key" (·.text?.map some) standard.apiKey
    timeoutSeconds := ← fieldOr r "timeout_secs" count? standard.timeoutSeconds
    temperature := ← fieldOr r "temperature" single? standard.temperature }

/-- Reads the settings of a run. -/
def RunConfig.ofFields? (r : Fields) : Option RunConfig := do
  let standard : RunConfig := {}
  return {
    root := ← fieldOr r "root" text? standard.root
    extensions := ← fieldOr r "extensions" languages? standard.extensions
    exclude := ← fieldOr r "exclude" texts? standard.exclude
    quota := ← fieldOr r "quota" (·.count?.map some) standard.quota
    lookback := ← fieldOr r "lookback" count? standard.lookback
    maxFileSize := ← fieldOr r "max_file_size" count? standard.maxFileSize
    heedsIgnoreFiles := ← fieldOr r "respect_gitignore" flag? standard.heedsIgnoreFiles
    dryRun := ← fieldOr r "dry_run" flag? standard.dryRun
    parallelism := ← fieldOr r "parallelism" count? standard.parallelism
    manifest := ← fieldOr r "manifest_path" (·.text?.map some) standard.manifest
    index := ← fieldOr r "index_path" (·.text?.map some) standard.index
    segmentation := ← fieldOr r "segmenter" SegmentOptions.ofToml? standard.segmentation
    model := ← fieldOr r "llm" ModelConfig.ofToml? standard.model }

/-- Reads the settings in a document. -/
def RunConfig.ofDocument? (text : String) : Option RunConfig :=
  (Toml.parse? text).bind RunConfig.ofFields?

end Marginalia
