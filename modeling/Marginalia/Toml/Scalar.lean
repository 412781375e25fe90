import Marginalia.Number.Decimal
import Marginalia.Text.Search
import Marginalia.Toml

/-!
Reading the parts of TOML that have no parts: white space, keys, strings, numbers and times. Each
reader takes the front of a text and gives back what it has read and the rest.
-/

namespace Marginalia.Toml

open Text

/-- Reads the front of a text. -/
abbrev Reader (α : Type) := List Char → Option (α × List Char)

/-! ### White space -/

/-- Spaces and tabs. -/
def isSpace (c : Char) : Bool := c == ' ' || c == '\t'

/-- A character that may stand in a comment. -/
def isPlain (c : Char) : Bool := c == '\t' || (32 ≤ c.toNat && c.toNat != 127)

/-- The text behind spaces and tabs. -/
def skipSpace (text : List Char) : List Char := text.dropWhile isSpace

/-- The text behind a line break. -/
def takeNewline? : List Char → Option (List Char)
  | '\n' :: rest => some rest
  | '\r' :: '\n' :: rest => some rest
  | _ => none

/-- The text behind a comment that starts here, if one does. -/
def skipComment : List Char → List Char
  | '#' :: rest => rest.dropWhile isPlain
  | text => text

/-- The text behind the end of a line, perhaps with a comment; the end of the text ends a line. -/
def endLine? (text : List Char) : Option (List Char) :=
  match skipComment (skipSpace text) with
  | [] => some []
  | rest => takeNewline? rest

/-- The text behind spaces, line breaks and comments. -/
def skipLines (inComment : Bool) : List Char → List Char
  | [] => []
  | '\r' :: '\n' :: rest => skipLines false rest
  | c :: rest =>
    if c = '\n' then skipLines false rest
    else if inComment then (if isPlain c then skipLines true rest else c :: rest)
    else if isSpace c then skipLines false rest
    else if c = '#' then skipLines true rest
    else c :: rest

/-! ### Strings -/

/-- The value of a hexadecimal digit. -/
def hexValue? (c : Char) : Option Nat :=
  if '0' ≤ c && c ≤ '9' then some (c.toNat - '0'.toNat)
  else if 'a' ≤ c && c ≤ 'f' then some (c.toNat - 'a'.toNat + 10)
  else if 'A' ≤ c && c ≤ 'F' then some (c.toNat - 'A'.toNat + 10)
  else none

/-- The character whose number stands in hexadecimal digits. -/
def charOfHex? (ds : List Char) : Option Char := do
  let n := (← ds.mapM hexValue?).foldl (16 * · + ·) 0
  if n.isValidChar then some (Char.ofNat n) else none

/-- Reads an escape behind its backslash. -/
def escaped? : Reader Char
  | 'b' :: rest => some (Char.ofNat 8, rest)
  | 'f' :: rest => some (Char.ofNat 12, rest)
  | 'n' :: rest => some ('\n', rest)
  | 'r' :: rest => some ('\r', rest)
  | 't' :: rest => some ('\t', rest)
  | '"' :: rest => some ('"', rest)
  | '\\' :: rest => some ('\\', rest)
  | 'u' :: rest =>
    if rest.length < 4 then none else (charOfHex? (rest.take 4)).map (·, rest.drop 4)
  | 'U' :: rest =>
    if rest.length < 8 then none else (charOfHex? (rest.take 8)).map (·, rest.drop 8)
  | _ => none

/-- Reads a string of one line behind its first quote; `done` was read before, in reverse. -/
def lineString? (fuel : Nat) (quote : Char) (done : List Char) : Reader String
  | [] => none
  | c :: rest =>
    match fuel with
    | 0 => none
    | fuel + 1 =>
      if c = quote then some (String.ofList done.reverse, rest)
      else if c = '\\' && quote = '"' then
        match escaped? rest with
        | some (e, rest) => lineString? fuel quote (e :: done) rest
        | none => none
      else if isPlain c then lineString? fuel quote (c :: done) rest
      else none

/-- The text behind spaces and line breaks. -/
def skipBlank : List Char → List Char
  | '\r' :: '\n' :: rest => skipBlank rest
  | c :: rest => if isSpace c || c = '\n' then skipBlank rest else c :: rest
  | [] => []

/-- The text behind a backslash that ends a line, with all white space that follows. -/
def joinedLine? (text : List Char) : Option (List Char) :=
  (takeNewline? (skipSpace text)).map skipBlank

/-- Reads a string of several lines behind its first quotes. Up to two quotes may stand directly
before the last three. -/
def blockString? (fuel : Nat) (quote : Char) (done : List Char) : Reader String
  | [] => none
  | c :: rest =>
    match fuel with
    | 0 => none
    | fuel + 1 =>
      if c = quote then
        let n := ((c :: rest).takeWhile (· == quote)).length
        if n < 3 then blockString? fuel quote (c :: done) rest
        else
          let kept := min (n - 3) 2
          some (String.ofList (done.reverse ++ List.replicate kept quote),
            (c :: rest).drop (kept + 3))
      else if c = '\\' && quote = '"' then
        match joinedLine? rest with
        | some rest => blockString? fuel quote done rest
        | none =>
          match escaped? rest with
          | some (e, rest) => blockString? fuel quote (e :: done) rest
          | none => none
      else
        match takeNewline? (c :: rest) with
        | some rest => blockString? fuel quote ('\n' :: done) rest
        | none => if isPlain c then blockString? fuel quote (c :: done) rest else none

/-- Reads a string between quotes of either kind. -/
def quotedString? : Reader String
  | q :: rest =>
    match dropFront? [q, q] rest with
    | some body => blockString? (body.length + 1) q [] ((takeNewline? body).getD body)
    | none => lineString? (rest.length + 1) q [] rest
  | [] => none

/-! ### Keys -/

/-- A character of a key without quotes. -/
def isKeyChar (c : Char) : Bool := c.isAlphanum || c == '-' || c == '_'

/-- Reads one key. -/
def simpleKey? : Reader String
  | [] => none
  | c :: rest =>
    if c = '"' || c = '\x27' then lineString? (rest.length + 1) c [] rest
    else
      let key := (c :: rest).takeWhile isKeyChar
      if key.isEmpty then none else some (String.ofList key, (c :: rest).drop key.length)

/-- Reads keys with dots between them; white space may stand around each. -/
def dottedKey? (fuel : Nat) (text : List Char) : Option (List String × List Char) :=
  match fuel with
  | 0 => none
  | fuel + 1 => do
    let (key, rest) ← simpleKey? (skipSpace text)
    match skipSpace rest with
    | '.' :: rest => do
      let (keys, rest) ← dottedKey? fuel rest
      return (key :: keys, rest)
    | rest => return ([key], rest)

/-- How many keys may stand one behind the other. -/
def maxKeys : Nat := 79

/-- Reads a key: the keys before the last one, and the last one. -/
def key? (text : List Char) : Option ((List String × String) × List Char) := do
  let (keys, rest) ← dottedKey? maxKeys text
  return ((keys.dropLast, ← keys.getLast?), rest)

/-! ### Numbers -/

/-- The digits at the front of a text, with underscores between them left out. -/
def digitsWith (isDigit : Char → Bool) : List Char → List Char × List Char
  | [] => ([], [])
  | '_' :: d :: rest =>
    if isDigit d then
      let (ds, rest) := digitsWith isDigit rest
      (d :: ds, rest)
    else ([], '_' :: d :: rest)
  | d :: rest =>
    if isDigit d then
      let (ds, rest) := digitsWith isDigit rest
      (d :: ds, rest)
    else ([], d :: rest)

/-- Reads digits, the first of which is no underscore. -/
def digits? (isDigit : Char → Bool) (text : List Char) : Option (List Char × List Char) :=
  match text with
  | '_' :: _ => none
  | _ =>
    let (ds, rest) := digitsWith isDigit text
    if ds.isEmpty then none else some (ds, rest)

/-- Reads a decimal integer without its sign: a zero alone, or digits of which the first is none. -/
def decimal? : Reader (List Char)
  | '0' :: rest => some (['0'], rest)
  | text => digits? Char.isDigit text

/-- An integer of sixty-four bits. -/
def integerOf? (negative : Bool) (n : Nat) : Option Toml :=
  if negative then if n ≤ Nat.pow 2 63 then some (integer (-n)) else none
  else if n < Nat.pow 2 63 then some (integer n) else none

/-- Reads an integer in another base behind its two marks. -/
def based? (base : Nat) (isDigit : Char → Bool) (text : List Char) :
    Option (Toml × List Char) := do
  let (ds, rest) ← digits? isDigit text
  let values ← ds.mapM hexValue?
  return (← integerOf? false (values.foldl (base * · + ·) 0), rest)

/-- Reads the exponent of a number, if there is one: its text. -/
def exponent? (text : List Char) : Option (List Char × List Char) :=
  match text with
  | c :: rest =>
    if c = 'e' || c = 'E' then
      let (sign, rest) :=
        match rest with
        | '-' :: rest => (['-'], rest)
        | '+' :: rest => ([], rest)
        | rest => ([], rest)
      (digits? Char.isDigit rest).map fun (ds, rest) => ('e' :: sign ++ ds, rest)
    else some ([], text)
  | [] => some ([], [])

/-- The number of a decimal text; one beyond all others upward is refused. -/
def floatOf? (text : List Char) : Option Toml :=
  match Decimal.parseBinary? .double text with
  | some (.infinite false) | none => none
  | some x => some (float x)

/-- Reads a number behind its sign. -/
def unsigned? (negative : Bool) (text : List Char) : Option (Toml × List Char) :=
  match text with
  | 'i' :: 'n' :: 'f' :: rest => some (float (.infinite negative), rest)
  | 'n' :: 'a' :: 'n' :: rest => some (float .nan, rest)
  | _ => do
    let (whole, rest) ← decimal? text
    let sign := if negative then ['-'] else []
    match rest with
    | '.' :: rest =>
      let (fraction, rest) ← digits? Char.isDigit rest
      let (e, rest) ← exponent? rest
      return (← floatOf? (sign ++ whole ++ '.' :: fraction ++ e), rest)
    | _ =>
      let (e, rest) ← exponent? rest
      if e.isEmpty then return (← integerOf? negative (Decimal.value whole), rest)
      else return (← floatOf? (sign ++ whole ++ e), rest)

/-- Reads a number. -/
def number? : Reader Toml
  | '0' :: 'x' :: rest => based? 16 (fun c => (hexValue? c).isSome) rest
  | '0' :: 'o' :: rest => based? 8 (fun c => '0' ≤ c && c ≤ '7') rest
  | '0' :: 'b' :: rest => based? 2 (fun c => c == '0' || c == '1') rest
  | '-' :: rest => unsigned? true rest
  | '+' :: rest => unsigned? false rest
  | text => unsigned? false text

/-! ### Dates and times -/

/-- Reads a number of so many digits, between two bounds. -/
def twoDigits? (count low high : Nat) (text : List Char) : Option (Nat × List Char) :=
  let ds := text.take count
  let n := Decimal.value ds
  if ds.length = count && ds.all Char.isDigit && low ≤ n && n ≤ high then
    some (n, text.drop count)
  else none

/-- The text behind one character. -/
def takeChar? (c : Char) : List Char → Option (List Char)
  | d :: rest => if d = c then some rest else none
  | [] => none

/-- How many days a month has. -/
def daysIn (year month : Nat) : Nat :=
  if month = 2 then
    if year % 4 = 0 && (year % 100 != 0 || year % 400 = 0) then 29 else 28
  else if [4, 6, 9, 11].contains month then 30
  else 31

/-- The text behind a date. -/
def takeDate? (text : List Char) : Option (List Char) := do
  let (year, rest) ← twoDigits? 4 0 9999 text
  let (month, rest) ← twoDigits? 2 1 12 (← takeChar? '-' rest)
  let (_, rest) ← twoDigits? 2 1 (daysIn year month) (← takeChar? '-' rest)
  return rest

/-- The text behind hours and minutes. -/
def takeMinutes? (text : List Char) : Option (List Char) := do
  let (_, rest) ← twoDigits? 2 0 23 text
  let (_, rest) ← twoDigits? 2 0 59 (← takeChar? ':' rest)
  return rest

/-- The text behind a time of the day. -/
def takeTime? (text : List Char) : Option (List Char) := do
  let rest ← takeMinutes? text
  let (_, rest) ← twoDigits? 2 0 60 (← takeChar? ':' rest)
  match rest with
  | '.' :: more =>
    if (more.head?.map Char.isDigit).getD false then return more.dropWhile Char.isDigit
    else return rest
  | _ => return rest

/-- The text behind the distance from universal time, if it is given. -/
def skipOffset (text : List Char) : List Char :=
  match text with
  | c :: rest =>
    if c = 'Z' || c = 'z' then rest
    else if c = '+' || c = '-' then (takeMinutes? rest).getD text
    else text
  | [] => []

/-- The text behind the time that follows a date, if one does. -/
def skipTime (text : List Char) : List Char :=
  match text with
  | c :: rest =>
    if c = 'T' || c = 't' || c = ' ' then ((takeTime? rest).map skipOffset).getD text else text
  | [] => []

/-- Reads a date, a time or both. -/
def moment? (text : List Char) : Option (Toml × List Char) :=
  match takeDate? text with
  | some rest => some (moment, skipTime rest)
  | none => (takeTime? text).map (moment, ·)

/-- Reads a value that has no parts. -/
def scalar? (text : List Char) : Option (Toml × List Char) :=
  match text with
  | 't' :: 'r' :: 'u' :: 'e' :: rest => some (boolean true, rest)
  | 'f' :: 'a' :: 'l' :: 's' :: 'e' :: rest => some (boolean false, rest)
  | '"' :: _ | '\x27' :: _ => (quotedString? text).map fun (s, rest) => (string s, rest)
  | _ => (moment? text).orElse fun _ => number? text

end Marginalia.Toml
