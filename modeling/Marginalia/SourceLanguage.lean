import Marginalia.Json.Record
import Marginalia.Text.Blank
import Marginalia.Text.Case

/-!
The languages whose sources are read. A language decides which lines open a definition, whether
braces or indentation end it, and how a comment is written.
-/

namespace Marginalia

/-- A source language. -/
inductive Language where
  | python | java | javascript | typescript | go | cpp | rust
  deriving DecidableEq, Repr, Inhabited

namespace Language

/-- All languages, in the order in which they are listed. -/
def all : List Language := [python, java, javascript, typescript, go, cpp, rust]

/-- The name under which a language is written down. -/
def name : Language → String
  | python => "python"
  | java => "java"
  | javascript => "javascript"
  | typescript => "typescript"
  | go => "go"
  | cpp => "cpp"
  | rust => "rust"

/-- The language with exactly this name. -/
def ofName? (s : String) : Option Language := all.find? (·.name == s)

/-- The language that a person means by `s`: names and usual short forms, in any case and with white
space around them. The error is the text that was understood. -/
def parse (s : String) : Except String Language :=
  match Text.lowered (Text.trimmed s) with
  | "python" | "py" => .ok python
  | "java" => .ok java
  | "javascript" | "js" => .ok javascript
  | "typescript" | "ts" => .ok typescript
  | "go" | "golang" => .ok go
  | "cpp" | "c++" | "cxx" => .ok cpp
  | "rust" | "rs" => .ok rust
  | other => .error other

/-- The language of a file extension, in any case, with or without leading dots. -/
def ofExtension? (extension : String) : Option Language :=
  match Text.lowered (String.ofList (extension.toList.dropWhile (· == '.'))) with
  | "py" | "pyw" => some python
  | "java" => some java
  | "js" | "mjs" | "cjs" | "jsx" => some javascript
  | "ts" | "tsx" | "mts" | "cts" => some typescript
  | "go" => some go
  | "cpp" | "cc" | "cxx" | "hpp" | "hh" | "hxx" => some cpp
  | "rs" => some rust
  | _ => none

/-- The extensions that a walk looks for unless told otherwise. -/
def defaultExtensions : List (String × Language) :=
  [("py", python), ("java", java), ("js", javascript), ("mjs", javascript), ("cjs", javascript),
    ("jsx", javascript), ("ts", typescript), ("tsx", typescript), ("go", go), ("cpp", cpp),
    ("cc", cpp), ("cxx", cpp), ("hpp", cpp), ("rs", rust)]

/-- What opens a line comment. -/
def commentMark : Language → List Char
  | python => ['#']
  | _ => ['/', '/']

/-- Bodies stand between braces. -/
def usesBraces : Language → Bool
  | python => false
  | _ => true

/-- A single quote opens a string; where it does not, it opens a character or a lifetime. -/
def singleQuoteOpensString : Language → Bool
  | rust => false
  | _ => true

instance : Json.Writable Language := ⟨fun l => .string l.name⟩
instance : Json.Readable Language := ⟨Json.ofWord? ofName?⟩

/-- Reading the name of a language gives it back. -/
theorem ofName?_name (l : Language) : ofName? l.name = some l := by cases l <;> decide

end Language

end Marginalia
