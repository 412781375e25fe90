import Marginalia.Json.Number
import Marginalia.Json.Parse

/-!
Values as JSON and JSON as values. A record is an object of named fields or an array of all its
fields in their order; fields that the record does not have are passed over, a field that it has may
stand only once.
-/

namespace Marginalia

namespace Json

/-- A type whose values are written as JSON. -/
class Writable (α : Type) where
  toJson : α → Json

/-- A type whose values are read from JSON. -/
class Readable (α : Type) where
  ofJson? : Json → Option α

export Writable (toJson)
export Readable (ofJson?)

/-- Reads a whole text as a value of a type. -/
def readText? (α : Type) [Readable α] (text : String) : Option α := (parse? text).bind ofJson?

/-! ### Plain values -/

instance : Writable Bool := ⟨bool⟩
instance : Readable Bool := ⟨fun | bool b => some b | _ => none⟩

instance : Writable Nat := ⟨nat⟩
instance : Readable Nat := ⟨fun | number n => n.count? | _ => none⟩

instance : Writable String := ⟨string⟩
instance : Readable String := ⟨fun | string s => some s | _ => none⟩

instance : Writable Single :=
  ⟨fun s => match Decimal.numeral? .single s with | some n => number n | none => null⟩
instance : Readable Single := ⟨fun | number n => n.single? | _ => none⟩

instance {α : Type} [Writable α] : Writable (Option α) := ⟨fun | some a => toJson a | none => null⟩
instance {α : Type} [Readable α] : Readable (Option α) :=
  ⟨fun | null => some none | v => (ofJson? v).map some⟩

instance {α : Type} [Writable α] : Writable (List α) := ⟨fun xs => array (xs.map toJson)⟩
instance {α : Type} [Readable α] : Readable (List α) :=
  ⟨fun | array vs => vs.mapM ofJson? | _ => none⟩

/-- Reads one of several words, alone or as the only key of an object that holds null. -/
def ofWord? {α : Type} (ofName? : String → Option α) : Json → Option α
  | string s => ofName? s
  | object [(some s, null)] => ofName? s
  | _ => none

/-! ### Maps -/

/-- Puts a value under its key into a map that is sorted by key. -/
def insertKey {α : Type} (key : String) (a : α) : List (String × α) → List (String × α)
  | [] => [(key, a)]
  | (k, b) :: rest =>
    if key < k then (key, a) :: (k, b) :: rest
    else if key = k then (key, a) :: rest
    else (k, b) :: insertKey key a rest

/-- Writes a map that is sorted by key. -/
def ofMap {α : Type} [Writable α] (m : List (String × α)) : Json :=
  ofFields (m.map fun (k, a) => (k, toJson a))

/-- Reads a map and sorts it by key; of two values under one key the later one stays. -/
def toMap? {α : Type} [Readable α] : Json → Option (List (String × α))
  | object fields => fields.foldlM (fun m (k, v) => do return insertKey (← k) (← ofJson? v) m) []
  | _ => none

/-! ### Records -/

/-- The fields of a record that is being read. -/
structure Record where
  /-- The record is an array. -/
  listed : Bool
  fields : List (String × Json)

/-- No name occurs twice. -/
def namesOnce (fields : List (String × Json)) : Bool :=
  (fields.map (·.1)).eraseDups.length == fields.length

/-- The fields with the given names. -/
def record? (names : List String) : Json → Option Record
  | object fields => do
    let keyed ← fields.mapM fun (k, v) => k.map (·, v)
    let known := keyed.filter fun (k, _) => names.contains k
    if namesOnce known then some ⟨false, known⟩ else none
  | array items => if items.length > names.length then none else some ⟨true, names.zip items⟩
  | _ => none

/-- A field that has to be there. -/
def Record.field {α : Type} [Readable α] (r : Record) (name : String) : Option α :=
  (r.fields.lookup name).bind ofJson?

/-- A field with a value of its own where it is missing. -/
def Record.fieldOr {α : Type} [Readable α] (r : Record) (name : String) (a : α) : Option α :=
  match r.fields.lookup name with
  | some v => ofJson? v
  | none => some a

/-- A text that may be missing or null and is then empty. -/
def Record.textOrEmpty (r : Record) (name : String) : Option String :=
  match r.fields.lookup name with
  | none | some null => some ""
  | some v => ofJson? v

/-- A field that may be null, and may be missing from an object. -/
def Record.optional {α : Type} [Readable α] (r : Record) (name : String) : Option (Option α) :=
  match r.fields.lookup name with
  | some v => ofJson? v
  | none => if r.listed then none else some none

end Json

end Marginalia
