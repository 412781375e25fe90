import Marginalia.Json
import Marginalia.Text.Search

/-!
Reading JSON text. The whole text has to be one value; white space may stand around every token.
-/

namespace Marginalia.Json

/-- The white space of JSON. -/
def isSpace (c : Char) : Bool := c == ' ' || c == '\n' || c == '\t' || c == '\r'

/-- The text from its next token on. -/
def skipSpace (text : List Char) : List Char := text.dropWhile isSpace

/-- The value of a hexadecimal digit. -/
def hexValue? (c : Char) : Option Nat :=
  if '0' ≤ c && c ≤ '9' then some (c.toNat - 48)
  else if 'a' ≤ c && c ≤ 'f' then some (c.toNat - 87)
  else if 'A' ≤ c && c ≤ 'F' then some (c.toNat - 55)
  else none

/-- The number that four hexadecimal digits stand for. -/
def hexQuad? (a b c d : Char) : Option Nat := do
  let a ← hexValue? a
  let b ← hexValue? b
  let c ← hexValue? c
  let d ← hexValue? d
  return ((a * 16 + b) * 16 + c) * 16 + d

/-- The character that a one-letter escape stands for. -/
def escaped? (c : Char) : Option Char :=
  match c with
  | '"' => some '"'
  | '\\' => some '\\'
  | '/' => some '/'
  | 'b' => some (Char.ofNat 8)
  | 'f' => some (Char.ofNat 12)
  | 'n' => some '\n'
  | 'r' => some '\r'
  | 't' => some '\t'
  | _ => none

/-- What has been read of a string literal. -/
structure StringState where
  /-- The characters so far, in reverse. -/
  done : List Char
  /-- The first half of a surrogate pair, just read. -/
  high : Option Nat
  /-- A half of a pair stood alone. -/
  broken : Bool

/-- Nothing has been read. -/
def StringState.start : StringState := ⟨[], none, false⟩

/-- Adds a character that needs no second half; a first half in front of it stays alone. -/
def StringState.push (s : StringState) (c : Char) : StringState :=
  ⟨c :: s.done, none, s.broken || s.high.isSome⟩

/-- Adds what a numbered escape stands for. -/
def StringState.pushUnit (s : StringState) (n : Nat) : StringState :=
  if 0xD800 ≤ n && n < 0xDC00 then ⟨s.done, some n, s.broken || s.high.isSome⟩
  else if 0xDC00 ≤ n && n < 0xE000 then
    match s.high with
    | some h =>
      ⟨Char.ofNat (0x10000 + (h - 0xD800) * 0x400 + (n - 0xDC00)) :: s.done, none, s.broken⟩
    | none => ⟨s.done, none, true⟩
  else s.push (Char.ofNat n)

/-- The text that has been read, if no half of a pair stood alone. -/
def StringState.finish (s : StringState) : Option String :=
  if s.broken || s.high.isSome then none else some (String.ofList s.done.reverse)

/-- Reads a string literal behind its opening quote: its text, and what follows the closing one. -/
def stringTail? (s : StringState) : List Char → Option (Option String × List Char)
  | [] => none
  | '"' :: rest => some (s.finish, rest)
  | '\\' :: 'u' :: a :: b :: c :: d :: rest =>
    match hexQuad? a b c d with
    | some n => stringTail? (s.pushUnit n) rest
    | none => none
  | '\\' :: c :: rest =>
    match escaped? c with
    | some e => stringTail? (s.push e) rest
    | none => none
  | c :: rest => if c.toNat < 32 then none else stringTail? (s.push c) rest

/-- One or more digits in front of a text. -/
def digits1? (text : List Char) : Option (List Char × List Char) :=
  let ds := text.takeWhile Char.isDigit
  if ds.isEmpty then none else some (ds, text.dropWhile Char.isDigit)

/-- The digits in front of the point: a zero alone, or digits that start with another one. -/
def wholePart? (text : List Char) : Option (List Char × List Char) :=
  match digits1? text with
  | some (['0'], rest) => some (['0'], rest)
  | some ('0' :: _, _) => none
  | other => other

/-- A fraction, if a point follows. -/
def fractionPart? (text : List Char) : Option (List Char × List Char) :=
  match text with
  | '.' :: rest => digits1? rest
  | _ => some ([], text)

/-- An exponent, if its letter follows. -/
def exponentPart? (text : List Char) : Option (Option (Bool × List Char) × List Char) :=
  match text with
  | c :: rest =>
    if c = 'e' || c = 'E' then
      let (negative, ds) := match rest with
        | '-' :: more => (true, more)
        | '+' :: more => (false, more)
        | _ => (false, rest)
      (digits1? ds).map fun (ds, rest) => (some (negative, ds), rest)
    else some (none, text)
  | [] => some (none, [])

/-- Reads a number. -/
def number? (text : List Char) : Option (Numeral × List Char) := do
  let (negative, text) := match text with
    | '-' :: rest => (true, rest)
    | _ => (false, text)
  let (whole, text) ← wholePart? text
  let (fraction, text) ← fractionPart? text
  let (exponent, text) ← exponentPart? text
  return (⟨negative, whole, fraction, exponent⟩, text)

/-- Reads the rest of a word and gives its value. -/
def keyword? (word : List Char) (v : Json) (text : List Char) : Option (Json × List Char) :=
  (Text.dropFront? word text).map (v, ·)

mutual
/-- Reads a value and gives what follows it; `fuel` bounds the tokens. -/
def value? : (fuel : Nat) → List Char → Option (Json × List Char)
  | 0, _ => none
  | fuel + 1, text =>
    match skipSpace text with
    | [] => none
    | '"' :: rest =>
      (stringTail? .start rest).map fun (s, rest) => ((s.map string).getD broken, rest)
    | '[' :: rest =>
      match skipSpace rest with
      | ']' :: rest => some (array [], rest)
      | rest => (items? fuel rest).map fun (vs, rest) => (array vs, rest)
    | '\x7b' :: rest =>
      match skipSpace rest with
      | '\x7d' :: rest => some (object [], rest)
      | rest => (fields? fuel rest).map fun (fs, rest) => (object fs, rest)
    | 'n' :: rest => keyword? ['u', 'l', 'l'] null rest
    | 't' :: rest => keyword? ['r', 'u', 'e'] (bool true) rest
    | 'f' :: rest => keyword? ['a', 'l', 's', 'e'] (bool false) rest
    | text => (number? text).map fun (n, rest) => (number n, rest)

/-- Reads the items of an array and its closing bracket. -/
def items? : (fuel : Nat) → List Char → Option (List Json × List Char)
  | 0, _ => none
  | fuel + 1, text =>
    match value? fuel text with
    | none => none
    | some (v, rest) =>
      match skipSpace rest with
      | ',' :: rest => (items? fuel rest).map fun (vs, rest) => (v :: vs, rest)
      | ']' :: rest => some ([v], rest)
      | _ => none

/-- Reads the fields of an object and its closing brace. -/
def fields? : (fuel : Nat) → List Char → Option (List (Option String × Json) × List Char)
  | 0, _ => none
  | fuel + 1, text =>
    match skipSpace text with
    | '"' :: rest =>
      match stringTail? .start rest with
      | none => none
      | some (key, rest) =>
        match skipSpace rest with
        | ':' :: rest =>
          match value? fuel rest with
          | none => none
          | some (v, rest) =>
            match skipSpace rest with
            | ',' :: rest => (fields? fuel rest).map fun (fs, rest) => ((key, v) :: fs, rest)
            | '\x7d' :: rest => some ([(key, v)], rest)
            | _ => none
        | _ => none
    | _ => none
end

/-- Space in front of a value is passed over. -/
theorem value?_congr {text text' : List Char} (h : skipSpace text = skipSpace text') (fuel : Nat) :
    value? fuel text = value? fuel text' := by
  cases fuel with
  | zero => rfl
  | succ fuel => rw [value?, value?, h]

theorem items?_congr {text text' : List Char} (h : skipSpace text = skipSpace text') (fuel : Nat) :
    items? fuel text = items? fuel text' := by
  cases fuel with
  | zero => rfl
  | succ fuel => rw [items?, items?, value?_congr h]

theorem fields?_congr {text text' : List Char} (h : skipSpace text = skipSpace text')
    (fuel : Nat) : fields? fuel text = fields? fuel text' := by
  cases fuel with
  | zero => rfl
  | succ fuel => rw [fields?, fields?, h]

/-- The value that a text writes down, if the whole text is one value. -/
def parse? (text : String) : Option Json :=
  match value? (2 * text.toList.length + 1) text.toList with
  | some (v, rest) => if (skipSpace rest).isEmpty then some v else none
  | none => none

end Marginalia.Json
