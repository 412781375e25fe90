import Marginalia.SourceLanguage
import Marginalia.Text.Lines

/-!
Braces of a line. Only the braces of the code count: those in strings, in character literals and in
line comments do not. Every line is read on its own, so a string that is not closed ends with its
line.
-/

namespace Marginalia

open Text

/-- A curly brace. -/
inductive Brace where
  | opening | closing
  deriving DecidableEq, Repr

/-- The length of the character literal that the text starts with; a single tick, such as that of a
lifetime, has the length one. -/
def charLiteralLength : List Char → Nat
  | '\x27' :: '\\' :: rest =>
    match (rest.take 10).findIdx? (· == '\x27') with
    | some i => i + 3
    | none => 1
  | '\x27' :: _ :: '\x27' :: _ => 3
  | _ => 1

/-- The braces of the code in the rest of a line: `quote` is the mark that closes the string the
rest starts in, and `skip` counts the characters that belong to something already read. -/
def bracesFrom (l : Language) (quote : Option Char) (skip : Nat) : List Char → List Brace
  | [] => []
  | c :: rest =>
    match skip, quote with
    | skip + 1, _ => bracesFrom l quote skip rest
    | 0, some q =>
      if c = '\\' then bracesFrom l quote 1 rest
      else bracesFrom l (if c = q then none else quote) 0 rest
    | 0, none =>
      if c = '/' && rest.head? == some '/' then []
      else if c = '"' || c = '\x60' then bracesFrom l (some c) 0 rest
      else if c = '\x27' then
        if l.singleQuoteOpensString then bracesFrom l (some c) 0 rest
        else bracesFrom l none (charLiteralLength (c :: rest) - 1) rest
      else if c = '\x7b' then .opening :: bracesFrom l none 0 rest
      else if c = '\x7d' then .closing :: bracesFrom l none 0 rest
      else bracesFrom l none 0 rest

/-- The braces of the code in a line. -/
def bracesOf (l : Language) (line : Line) : List Brace := bracesFrom l none 0 line

/-- How reading braces went. -/
inductive Balance where
  /-- So many braces are still open. -/
  | pending (depth : Nat)
  /-- The first brace has been closed. -/
  | closed
  /-- A brace was closed before one was opened. -/
  | stray
  deriving DecidableEq, Repr

/-- Reads braces while `depth` are open. -/
def balance (depth : Nat) : List Brace → Balance
  | [] => .pending depth
  | .opening :: rest => balance (depth + 1) rest
  | .closing :: rest =>
    match depth with
    | 0 => .stray
    | 1 => .closed
    | depth + 2 => balance (depth + 1) rest

/-- The number of lines up to the one that closes the first brace, where `passed` lines have been
read before these: there is none if the first brace opens more than `lookahead` lines behind the
first line, if a brace is closed before, or if the lines end. -/
def bracedLength (l : Language) (lookahead : Nat) (passed depth : Nat) : List Line → Option Nat
  | [] => none
  | line :: rest =>
    if depth = 0 && passed > lookahead then none
    else
      match balance depth (bracesOf l line) with
      | .closed => some (passed + 1)
      | .stray => none
      | .pending depth' => bracedLength l lookahead (passed + 1) depth' rest

/-- A braced part has at least the line it starts with. -/
theorem passed_lt_bracedLength {l : Language} {lookahead passed depth n : Nat} {lines : List Line}
    (h : bracedLength l lookahead passed depth lines = some n) : passed < n := by
  induction lines generalizing passed depth with
  | nil => simp [bracedLength] at h
  | cons line rest ih =>
    rw [bracedLength] at h
    split at h
    · exact absurd h (by simp)
    · split at h
      · simp only [Option.some.injEq] at h; omega
      · exact absurd h (by simp)
      · exact Nat.lt_of_succ_lt (ih h)

end Marginalia
