import Marginalia.Number.Numeral
import Marginalia.Text.Quoted

/-!
JSON values and their text. A number is kept as it is written. A string literal whose escapes leave
half of a surrogate pair stands for no text: it is kept as `broken`, so that a reader which passes
over it need not refuse it.
-/

namespace Marginalia

/-- A JSON value. -/
inductive Json where
  | null
  | bool (b : Bool)
  | number (n : Numeral)
  | string (s : String)
  | broken
  | array (items : List Json)
  /-- The fields in the order in which they are written, a broken key as `none`. -/
  | object (fields : List (Option String × Json))

namespace Json

/-- An object with the given fields. -/
def ofFields (fields : List (String × Json)) : Json :=
  object (fields.map fun (k, v) => (some k, v))

/-- A natural number. -/
def nat (n : Nat) : Json := number (.ofNat n)

/-! ### Writing -/

/-- The hexadecimal digit of a number below sixteen. -/
def hexDigit (n : Nat) : Char := Nat.digitChar n

/-- One character inside a string literal. -/
def escapeChar (c : Char) : List Char :=
  if c = '"' then ['\\', '"']
  else if c = '\\' then ['\\', '\\']
  else if c = '\n' then ['\\', 'n']
  else if c = '\r' then ['\\', 'r']
  else if c = '\t' then ['\\', 't']
  else if c.toNat = 8 then ['\\', 'b']
  else if c.toNat = 12 then ['\\', 'f']
  else if c.toNat < 32 then
    ['\\', 'u', '0', '0', hexDigit (c.toNat / 16), hexDigit (c.toNat % 16)]
  else [c]

/-- A string literal. -/
def literal (s : String) : List Char := ['"'] ++ s.toList.flatMap escapeChar ++ ['"']

/-- The literal of a key; a broken one is written as a lone half of a pair. -/
def keyLiteral : Option String → List Char
  | some s => literal s
  | none => "\"\\ud800\"".toList

mutual
/-- The text of a value without any white space. -/
def compact : Json → List Char
  | null => "null".toList
  | bool true => "true".toList
  | bool false => "false".toList
  | number n => n.text
  | string s => literal s
  | broken => keyLiteral none
  | array items => ['['] ++ compactItems items ++ [']']
  | object fields => ['\x7b'] ++ compactFields fields ++ ['\x7d']

/-- Values with commas between them. -/
def compactItems : List Json → List Char
  | [] => []
  | [v] => compact v
  | v :: rest => compact v ++ ',' :: compactItems rest

/-- Keys and values with commas between them. -/
def compactFields : List (Option String × Json) → List Char
  | [] => []
  | [(k, v)] => keyLiteral k ++ ':' :: compact v
  | (k, v) :: rest => keyLiteral k ++ ':' :: compact v ++ ',' :: compactFields rest
end

/-- The start of a line at a depth of nesting. -/
def indentation (depth : Nat) : List Char := '\n' :: List.replicate (2 * depth) ' '

mutual
/-- The text of a value with one item or field a line, each depth indented by two spaces. -/
def pretty (depth : Nat) : Json → List Char
  | array [] => ['[', ']']
  | array items => ['['] ++ prettyItems (depth + 1) items ++ indentation depth ++ [']']
  | object [] => ['\x7b', '\x7d']
  | object fields =>
    ['\x7b'] ++ prettyFields (depth + 1) fields ++ indentation depth ++ ['\x7d']
  | null => compact null
  | bool b => compact (bool b)
  | number n => compact (number n)
  | string s => compact (string s)
  | broken => compact broken

/-- Values, each on its line. -/
def prettyItems (depth : Nat) : List Json → List Char
  | [] => []
  | [v] => indentation depth ++ pretty depth v
  | v :: rest => indentation depth ++ pretty depth v ++ ',' :: prettyItems depth rest

/-- Keys and values, each on its line. -/
def prettyFields (depth : Nat) : List (Option String × Json) → List Char
  | [] => []
  | [(k, v)] => indentation depth ++ keyLiteral k ++ [':', ' '] ++ pretty depth v
  | (k, v) :: rest =>
    indentation depth ++ keyLiteral k ++ [':', ' '] ++ pretty depth v ++ ',' ::
      prettyFields depth rest
end

/-- The compact text of a value. -/
def toText (v : Json) : String := String.ofList (compact v)

/-- The indented text of a value. -/
def toPrettyText (v : Json) : String := String.ofList (pretty 0 v)

end Json

end Marginalia
