import Marginalia.Number.Binary

/-!
TOML values, and how the tables of a document come about. A table may be named by a header, be
implied by the header of another one below it, or be made by dotted keys; only what is implied by a
header may be named later, and only what is made by dotted keys may be added to by them.
-/

namespace Marginalia

/-- How a table has come about. -/
inductive TableOrigin where
  | header
  | implied
  | dotted
  deriving DecidableEq, Repr

/-- A TOML value. -/
inductive Toml where
  | string (s : String)
  | integer (n : Int)
  | float (x : Binary)
  | boolean (b : Bool)
  /-- A date, a time or both; which one says nothing here. -/
  | moment
  | array (items : List Toml)
  /-- A table written between braces, which is complete. -/
  | inline (fields : List (String × Toml))
  | table (origin : TableOrigin) (fields : List (String × Toml))
  /-- Tables under one header between double brackets, the last one first. -/
  | tables (items : List (List (String × Toml)))

namespace Toml

/-- Keys with their values. -/
abbrev Fields := List (String × Toml)

/-- The fields with another value under a key. -/
def putField (key : String) (v : Toml) : Fields → Fields
  | [] => [(key, v)]
  | (k, w) :: rest => if k = key then (key, v) :: rest else (k, w) :: putField key v rest

/-- Changes the table that keys lead to, and makes those on the way that are missing. Dotted keys
lead into no table that a header has named. -/
def descend (byDots : Bool) (change : TableOrigin → Fields → Option (TableOrigin × Fields)) :
    List String → TableOrigin → Fields → Option (TableOrigin × Fields)
  | [], origin, fields => change origin fields
  | key :: path, origin, fields =>
    match fields.lookup key with
    | none => do
      let (o, sub) ← descend byDots change path (if byDots then .dotted else .implied) []
      return (origin, putField key (table o sub) fields)
    | some (table o sub) =>
      if byDots && o = .header then none
      else do
        let (o, sub) ← descend byDots change path o sub
        return (origin, putField key (table o sub) fields)
    | some (tables (last :: others)) => do
      let (_, sub) ← descend byDots change path .header last
      return (origin, putField key (tables (sub :: others)) fields)
    | some _ => none

/-- Adds a value under dotted keys, the last of which is new. -/
def addField (path : List String) (key : String) (v : Toml) (origin : TableOrigin)
    (fields : Fields) : Option (TableOrigin × Fields) :=
  descend true (fun o sub =>
    if (o == .dotted) == path.isEmpty then none
    else if (sub.lookup key).isSome then none
    else some (o, putField key v sub)) path origin fields

/-- Names a table by a header: it must be new or implied. -/
def openTable (key : String) (origin : TableOrigin) (fields : Fields) :
    Option (TableOrigin × Fields) :=
  match fields.lookup key with
  | none => some (origin, putField key (table .header []) fields)
  | some (table .implied sub) => some (origin, putField key (table .header sub) fields)
  | some _ => none

/-- Adds a table to those under a header between double brackets. -/
def appendTable (key : String) (origin : TableOrigin) (fields : Fields) :
    Option (TableOrigin × Fields) :=
  match fields.lookup key with
  | none => some (origin, putField key (tables [[]]) fields)
  | some (tables items) => some (origin, putField key (tables ([] :: items)) fields)
  | some _ => none

end Toml

end Marginalia
