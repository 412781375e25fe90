import Marginalia.SourceLanguage

/-!
Words with a meaning of their own. A reserved word may stand before a parenthesis but never names a
definition or a call.
-/

namespace Marginalia

/-- The words of a language that can stand before a parenthesis and name nothing. -/
def Language.reserved : Language → List String
  | .python => [
      "if", "elif", "else", "for", "while", "with", "try", "except", "finally", "return", "yield",
      "await", "lambda", "assert", "not", "and", "or", "in", "is", "del", "raise", "def", "class",
      "import", "from", "global", "nonlocal", "pass"]
  | .java => [
      "if", "else", "for", "while", "do", "switch", "case", "catch", "try", "finally", "return",
      "new", "throw", "throws", "synchronized", "assert", "super", "this", "instanceof"]
  | .javascript | .typescript => [
      "if", "else", "for", "while", "do", "switch", "case", "catch", "try", "finally", "return",
      "new", "delete", "throw", "typeof", "void", "function", "class", "super", "this", "await",
      "yield", "import", "in", "instanceof", "of", "with"]
  | .go => [
      "if", "else", "for", "switch", "case", "return", "go", "defer", "select", "func", "range",
      "map", "chan", "type", "struct", "interface"]
  | .cpp => [
      "if", "else", "for", "while", "do", "switch", "case", "catch", "try", "return", "new",
      "delete", "throw", "sizeof", "alignof", "alignas", "decltype", "typeid", "static_assert",
      "noexcept", "operator", "this", "co_await", "co_return", "co_yield"]
  | .rust => [
      "if", "else", "for", "while", "loop", "match", "return", "fn", "let", "in", "as", "move",
      "unsafe", "where", "impl", "dyn", "ref", "mut", "async", "await"]

/-- The word is reserved in the language. -/
def Language.reserves (l : Language) (word : String) : Bool := l.reserved.contains word

/-- Words that stand before a Java method and are never its return type. -/
def javaModifiers : List String := [
  "public", "private", "protected", "static", "final", "abstract", "synchronized", "native",
  "default", "strictfp"]

end Marginalia
