import Marginalia.Toml.Scalar

/-!
Reading a TOML document. A document is read line by line: a header opens a table, and a key with its
value is put into the table that was opened last.
-/

namespace Marginalia.Toml

/-- How deep arrays and tables between braces may be nested. -/
def maxDepth : Nat := 79

mutual
/-- Reads a value. -/
def value? (fuel depth : Nat) (text : List Char) : Option (Toml × List Char) :=
  match fuel, text with
  | 0, _ => none
  | fuel + 1, '[' :: rest =>
    if depth = 0 then none
    else do
      let (items, rest) ← items? fuel (depth - 1) rest
      return (array items, rest)
  | fuel + 1, '\x7b' :: rest =>
    if depth = 0 then none
    else
      match skipSpace rest with
      | '\x7d' :: rest => some (inline [], rest)
      | rest => do
        let (fields, rest) ← fields? fuel (depth - 1) [] rest
        return (inline fields, rest)
  | _ + 1, text => scalar? text

/-- Reads the items of an array, up to its closing bracket. -/
def items? (fuel depth : Nat) (text : List Char) : Option (List Toml × List Char) :=
  match fuel, skipLines false text with
  | 0, _ => none
  | _ + 1, ']' :: rest => some ([], rest)
  | fuel + 1, text => do
    let (item, rest) ← value? fuel depth text
    match skipLines false rest with
    | ',' :: rest =>
      let (items, rest) ← items? fuel depth rest
      return (item :: items, rest)
    | ']' :: rest => return ([item], rest)
    | _ => none

/-- Reads the fields of a table between braces, up to its closing brace, behind those in `done`. -/
def fields? (fuel depth : Nat) (done : Fields) (text : List Char) :
    Option (Fields × List Char) :=
  match fuel with
  | 0 => none
  | fuel + 1 => do
    let ((path, key), rest) ← key? text
    let rest ← takeChar? '=' rest
    let (v, rest) ← value? fuel depth (skipSpace rest)
    let (_, done) ← addField path key v .header done
    match skipSpace rest with
    | ',' :: rest => fields? fuel depth done rest
    | '\x7d' :: rest => return (done, rest)
    | _ => none
end

/-- A document that is being read. -/
structure Document where
  fields : Fields
  /-- The table that was opened last. -/
  current : List String

namespace Document

/-- Opens a table, or one more of several tables. -/
def openAt (d : Document) (several : Bool) (path : List String) (key : String) :
    Option Document := do
  let change := if several then appendTable key else openTable key
  let (_, fields) ← descend false change path .header d.fields
  return ⟨fields, path ++ [key]⟩

/-- Puts a value into the table that was opened last. -/
def add (d : Document) (path : List String) (key : String) (v : Toml) : Option Document := do
  let (_, fields) ← descend false (addField path key v) d.current .header d.fields
  return { d with fields := fields }

end Document

/-- Reads a header behind its first bracket, up to the end of its line. -/
def header? (d : Document) (text : List Char) : Option (Document × List Char) :=
  match text with
  | '[' :: rest => do
    let ((path, key), rest) ← key? rest
    let rest ← takeChar? ']' (← takeChar? ']' rest)
    return (← d.openAt true path key, ← endLine? rest)
  | _ => do
    let ((path, key), rest) ← key? text
    let rest ← takeChar? ']' rest
    return (← d.openAt false path key, ← endLine? rest)

/-- Reads a key and its value, up to the end of their line. -/
def pair? (fuel : Nat) (d : Document) (text : List Char) : Option (Document × List Char) := do
  let ((path, key), rest) ← key? text
  let rest ← takeChar? '=' rest
  let (v, rest) ← value? fuel maxDepth (skipSpace rest)
  return (← d.add path key v, ← endLine? rest)

/-- Reads the rest of a document. -/
def document? (fuel : Nat) (d : Document) (text : List Char) : Option Document :=
  match fuel, skipSpace text with
  | _, [] => some d
  | 0, _ => none
  | fuel + 1, '[' :: rest => do
    let (d, rest) ← header? d rest
    document? fuel d rest
  | fuel + 1, c :: rest =>
    if c = '#' || c = '\n' || c = '\r' then (endLine? (c :: rest)).bind (document? fuel d ·)
    else do
      let (d, rest) ← pair? (rest.length + 2) d (c :: rest)
      document? fuel d rest

/-- The fields of the table that a whole text is; a byte order mark in front says nothing. -/
def parse? (text : String) : Option Fields :=
  let chars := text.toList
  let chars := if chars.head? == some (Char.ofNat 0xFEFF) then chars.tail else chars
  (document? (chars.length + 1) ⟨[], []⟩ chars).map (·.fields)

end Marginalia.Toml
