import Marginalia.LinePattern
import Marginalia.Text.Blank
import Marginalia.Text.Word

/-!
The shapes of definition lines and of scope lines, one pattern for each. A shape has to fit on one
physical line; a signature that is wrapped is not seen.
-/

namespace Marginalia.Shape

open Pattern Text

/-- White space, perhaps none. What stands behind it does not need any of it. -/
def gap : Pattern := whole isBlank

/-- White space, some at least. What stands behind it does not need any more of it. -/
def gap1 : Pattern := seq (one isBlank) gap

/-- A literal character. -/
def mark (c : Char) : Pattern := one (· == c)

/-- Characters up to one that ends a bracketed part. -/
def upTo (stop : Char) : Pattern := span (· != stop)

/-- A parameter list without inner parentheses. -/
def flatParams : Pattern := span fun c => c != '(' && c != ')'

/-- Any characters but a line feed. -/
def sameLine (c : Char) : Bool := c != '\n'

/-- An identifier. -/
def ident : Pattern := seq (one isNameStart) (span isWord)

/-- A word character or a dollar sign. -/
def isDollarWord (c : Char) : Bool := isWord c || c == '$'

/-- An identifier in which dollar signs are allowed. -/
def dollarIdent : Pattern := seq (one fun c => isNameStart c || c == '$') (span isDollarWord)

/-- A word and the white space behind it. -/
def spaced (s : String) : Pattern := seq (word s) gap1

/-- Any number of modifiers, each with white space behind it. -/
def modifiers (words : List String) : Pattern := many (seq (anyOf words) gap1)

/-- Type parameters between angle brackets. -/
def angled : Pattern := all [mark '<', upTo '>', mark '>']

/-- Type parameters between square brackets. -/
def squared : Pattern := all [mark '[', upTo ']', mark ']']

/-- A Python definition: group 1 is the name and group 2 the parameters, up to the last closing
parenthesis that a colon can follow. -/
def pythonDefinition : Pattern := all [
  gap, optional (spaced "async"), spaced "def", group 1 ident, gap,
  mark '(', group 2 (span sameLine), mark ')', gap,
  optional (seq (word "->") (upTo ':')), mark ':']

/-- A Python class. -/
def pythonClass : Pattern := all [gap, spaced "class", group 1 ident]

/-- A Java method with its opening brace: group 1 is the return type, 2 the name, 3 the
parameters. -/
def javaMethod : Pattern := all [
  gap,
  modifiers ["public", "private", "protected", "static", "final", "abstract", "synchronized",
    "native", "default", "strictfp"],
  optional (seq angled gap1),
  group 1 (all [
    span1 fun c => isWord c || c == '.' || c == '$',
    optional (all [mark '<', flatParams, mark '>']),
    many (word "[]")]),
  gap1, group 2 dollarIdent, gap, mark '(', group 3 flatParams, mark ')', gap,
  optional (all [word "throws", one isBlank,
    span1 fun c => isWord c || c == '.' || c == '$' || c == ',' || isBlank c]),
  mark '\x7b']

/-- A Java type. -/
def javaType : Pattern := all [
  gap, modifiers ["public", "private", "protected", "static", "final", "abstract", "sealed"],
  anyOf ["class", "interface", "enum", "record"], gap1, group 1 dollarIdent]

/-- A function declared by its keyword. -/
def scriptFunction : Pattern := all [
  gap, optional (spaced "export"), optional (spaced "default"), optional (spaced "async"),
  word "function", gap, optional (mark '*'), gap, group 1 dollarIdent, gap, optional angled, gap,
  mark '(', group 2 flatParams, mark ')']

/-- A variable that holds an arrow function. -/
def scriptArrow : Pattern := all [
  gap, optional (spaced "export"), anyOf ["const", "let", "var"], gap1, group 1 dollarIdent, gap,
  optional (seq (mark ':') (span1 (· != '='))), mark '=', gap, optional (spaced "async"),
  mark '(', group 2 flatParams, mark ')', gap,
  optional (seq (mark ':') (span1 (· != '='))), word "=>"]

/-- A method in a class body, its opening brace at the end of the line. -/
def scriptMethod : Pattern := all [
  gap,
  modifiers ["public", "private", "protected", "static", "async", "readonly", "override", "get",
    "set"],
  optional (mark '*'), group 1 dollarIdent, gap, optional angled, gap,
  mark '(', group 2 flatParams, mark ')', gap,
  optional (seq (mark ':') (span1 fun c => c != '\x7b' && c != ';')),
  mark '\x7b', gap, atEnd]

/-- A class of a script. -/
def scriptClass : Pattern := all [
  gap, optional (spaced "export"), optional (spaced "default"), optional (spaced "abstract"),
  word "class", gap1, group 1 dollarIdent]

/-- A Go function: group 1 is the type of its receiver, 2 the name, 3 the parameters. -/
def goFunction : Pattern := all [
  spaced "func",
  optional (all [mark '(', gap, optional (seq ident gap1), optional (mark '*'), gap,
    group 1 ident, optional squared, gap, mark ')', gap]),
  group 2 ident, gap, optional squared, gap, mark '(', group 3 flatParams, mark ')']

/-- A C++ function with its return type in front: group 1 is the name with its qualifiers, 2 the
parameters. -/
def cppFunction : Pattern := all [
  gap,
  modifiers ["static", "inline", "virtual", "explicit", "constexpr", "friend", "extern"],
  optional (spaced "const"),
  one isNameStart, span (fun c => isWord c || c == ':' || c == '<' || c == '>' || c == ','),
  span1 (fun c => isBlank c || c == '*' || c == '&'),
  group 1 (all [many (seq ident (word "::")), optional (mark '~'), ident]),
  gap, mark '(', group 2 flatParams, mark ')', gap,
  optional (seq (word "const") gap), optional (seq (word "noexcept") gap),
  optional (seq (word "override") gap), optional (seq (word "final") gap),
  optional (mark '\x7b'), gap, atEnd]

/-- A C++ class, structure or namespace. -/
def cppScope : Pattern := all [
  gap, anyOf ["class", "struct", "namespace"], gap1, group 1 ident]

/-- The visibility of a Rust item. -/
def rustVisibility : Pattern :=
  optional (all [word "pub", optional (all [gap, mark '(', upTo ')', mark ')']), gap1])

/-- A Rust function: group 1 is the name, 2 the parameters up to the first closing parenthesis that
an arrow, a `where`, a brace or the end of the line follows. -/
def rustFunction : Pattern := all [
  gap, rustVisibility, optional (spaced "default"), optional (spaced "const"),
  optional (spaced "async"), optional (spaced "unsafe"),
  optional (all [spaced "extern", mark '"', upTo '"', mark '"', gap1]),
  spaced "fn", group 1 ident, gap, optional (all [mark '<', frugal sameLine, mark '>']), gap,
  mark '(', group 2 (frugal sameLine), mark ')', gap,
  either (anyOf ["->", "where", "\x7b"]) atEnd]

/-- A Rust block that gives its functions a scope: the type behind `impl` or its `for`, a trait or a
module. -/
def rustScope : Pattern := all [
  gap, rustVisibility, optional (spaced "unsafe"),
  either
    (all [word "impl", optional (seq gap angled), gap1,
      optional (all [
        span1 (fun c => isWord c || c == ':' || c == '<' || c == '>' || c == ',' || c == ' '),
        gap1, word "for", gap1])])
    (either (spaced "trait") (spaced "mod")),
  group 1 ident]

end Marginalia.Shape
