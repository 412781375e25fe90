import Marginalia.Text.Search

/-!
Line patterns. A pattern is tried from the front of a line and its choices have an order: an
alternative is tried before the ones behind it, a greedy run gives characters back one at a time
from its end, a frugal run takes them one at a time, and a whole run gives none back. The first way
that lets the rest of the pattern succeed wins, and what its groups covered is the result.
-/

namespace Marginalia

/-- A pattern over the characters of a line. -/
inductive Pattern where
  /-- Nothing, and always. -/
  | empty
  /-- One character of a class. -/
  | one (p : Char → Bool)
  /-- Exactly this text. -/
  | text (s : List Char)
  /-- One pattern behind the other. -/
  | seq (first second : Pattern)
  /-- Either of two patterns, the first one preferred. -/
  | either (first second : Pattern)
  /-- As many characters of a class as the rest of the pattern allows. -/
  | span (p : Char → Bool)
  /-- All characters of a class that follow; none is given back. -/
  | whole (p : Char → Bool)
  /-- As few characters of a class as the rest of the pattern allows. -/
  | frugal (p : Char → Bool)
  /-- As many repetitions as the rest of the pattern allows; each one takes a character at least. -/
  | many (body : Pattern)
  /-- A numbered part of the match. -/
  | group (number : Nat) (body : Pattern)
  /-- The end of the line. -/
  | atEnd

/-- What the groups of a match cover: for each, the text that was left at its start and at its end,
the latest group first. -/
abbrev Captures := List (Nat × List Char × List Char)

/-- What remains to be matched behind a part of a pattern. -/
abbrev Continuation := List Char → Captures → Option Captures

namespace Pattern

/-- The texts left behind a run of characters of a class, the longest run first, in front of
`done`. -/
def runRests (p : Char → Bool) (done : List (List Char)) : List Char → List (List Char)
  | [] => [] :: done
  | c :: rest => if p c then runRests p ((c :: rest) :: done) rest else (c :: rest) :: done

/-- Repeats a step as often as it goes, `fuel` times at most, and then goes on with `next`. -/
def repeatStep (step : List Char → Captures → Continuation → Option Captures) :
    (fuel : Nat) → List Char → Captures → Continuation → Option Captures
  | 0, s, found, next => next s found
  | fuel + 1, s, found, next =>
    match step s found (fun s' found' => repeatStep step fuel s' found' next) with
    | some result => some result
    | none => next s found

/-- Matches a pattern against the front of `s` and goes on with `next`. -/
def run : Pattern → List Char → Captures → Continuation → Option Captures
  | empty, s, found, next => next s found
  | one p, s, found, next =>
    match s with
    | c :: rest => if p c then next rest found else none
    | [] => none
  | text t, s, found, next =>
    match Text.dropFront? t s with
    | some rest => next rest found
    | none => none
  | seq a b, s, found, next => run a s found fun s' found' => run b s' found' next
  | either a b, s, found, next =>
    match run a s found next with
    | some result => some result
    | none => run b s found next
  | span p, s, found, next => (runRests p [] s).findSome? (next · found)
  | whole p, s, found, next => next (s.dropWhile p) found
  | frugal p, s, found, next => (runRests p [] s).reverse.findSome? (next · found)
  | many body, s, found, next => repeatStep (run body) s.length s found next
  | group i body, s, found, next => run body s found fun s' found' => next s' ((i, s, s') :: found')
  | atEnd, s, found, next => if s.isEmpty then next s found else none

/-- The groups of the preferred match at the front of a line. -/
def captures? (p : Pattern) (line : List Char) : Option Captures :=
  run p line [] fun _ found => some found

/-- Patterns one behind the other. -/
def all : List Pattern → Pattern
  | [] => empty
  | [p] => p
  | p :: rest => seq p (all rest)

/-- The first of several texts that lets the rest succeed. -/
def anyOf : List String → Pattern
  | [] => one fun _ => false
  | [s] => text s.toList
  | s :: rest => either (text s.toList) (anyOf rest)

/-- A pattern that may be missing, preferably present. -/
def optional (p : Pattern) : Pattern := either p empty

/-- A literal word. -/
def word (s : String) : Pattern := text s.toList

/-- One or more characters of a class. -/
def span1 (p : Char → Bool) : Pattern := seq (one p) (span p)

/-! ### Single parts -/

section

variable {s rest : List Char} {found : Captures} {next : Continuation}

theorem runRests_append_done (p : Char → Bool) (done : List (List Char)) (s : List Char) :
    runRests p done s = runRests p [] s ++ done := by
  induction s generalizing done with
  | nil => rfl
  | cons c s ih =>
    simp only [runRests]
    split
    · rw [ih ((c :: s) :: done), ih [c :: s], List.append_assoc, List.singleton_append]
    · rfl

theorem run_one_cons {p : Char → Bool} {c : Char} (h : p c = true) :
    run (one p) (c :: rest) found next = next rest found := by
  simp [run, h]

theorem run_either (a b : Pattern) :
    run (either a b) s found next = (run a s found next).or (run b s found next) := by
  rw [run]
  cases run a s found next <;> rfl

/-- A repetition ends where it does not lead to a match. -/
theorem repeatStep_of_none {body : Pattern} (fuel : Nat)
    (h : ∀ n, (run body s found fun s' found' => repeatStep (run body) n s' found' next) = none) :
    repeatStep (run body) fuel s found next = next s found := by
  cases fuel with
  | zero => rfl
  | succ fuel => rw [repeatStep, h]

end

end Pattern

/-- What a group covers, if it took part in the match. -/
def Captures.get? (found : Captures) (number : Nat) : Option (List Char) :=
  (List.lookup number found).map fun (before, after) => before.take (before.length - after.length)

/-- What a group covers, nothing if it took no part. -/
def Captures.get (found : Captures) (number : Nat) : String :=
  String.ofList ((found.get? number).getD [])

end Marginalia
