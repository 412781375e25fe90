import Mathlib.Logic.Relation
import Marginalia.Project

/-!
Files worked on at the same time. As many tasks as there are places are under way together and take
turns in any order, an action at a time; meanwhile the run may be asked to stop, or no longer to
stop, at any moment. Work on one file ends before that on another as it happens, but what became of
the files is looked at in the order of their numbers.
-/

namespace Marginalia

/-- Work on a file that has begun: the number of the file, and what is left to do. -/
structure Underway where
  file : ParsedFile
  number : Nat
  rest : Task FileOutcome

/-- Work on a file that has ended. -/
structure Ended where
  file : ParsedFile
  number : Nat
  outcome : FileOutcome

/-- The files of a run at one moment. -/
structure Crew where
  waiting : List (ParsedFile × Nat)
  underway : List Underway
  /-- What has ended, in the order in which it did. -/
  ended : List Ended

namespace Crew

/-- Nothing has begun. -/
def start (files : List (ParsedFile × Nat)) : Crew := ⟨files, [], []⟩

/-- What became of the files, in the order of their numbers. -/
def outcomes (c : Crew) : List FileOutcome :=
  (sortBy (fun a b => a.number < b.number) c.ended).map (·.outcome)

/-- What can happen next. -/
inductive Step (s : Workshop) (places : Nat) : Crew × World → Crew × World → Prop
  /-- The work on a file begins, if a place is free. -/
  | begin {before after : List (ParsedFile × Nat)} {f : ParsedFile} {number : Nat}
      {underway : List Underway} {ended : List Ended} {w : World} (free : underway.length < places) :
      Step s places (⟨before ++ (f, number) :: after, underway, ended⟩, w)
        (⟨before ++ after, underway ++ [⟨f, number, s.work f⟩], ended⟩, w)
  /-- A task does its next action. -/
  | act {waiting : List (ParsedFile × Nat)} {before after : List Underway} {f : ParsedFile}
      {number : Nat} {a : Action} {next : a.Answer → Task FileOutcome} {ended : List Ended}
      {w w' : World} {answer : a.Answer} (done : a.perform w = (.ok answer, w')) :
      Step s places (⟨waiting, before ++ ⟨f, number, .act a next⟩ :: after, ended⟩, w)
        (⟨waiting, before ++ ⟨f, number, next answer⟩ :: after, ended⟩, w')
  /-- The next action of a task crashes, and with it the task. -/
  | crash {waiting : List (ParsedFile × Nat)} {before after : List Underway} {f : ParsedFile}
      {number : Nat} {a : Action} {next : a.Answer → Task FileOutcome} {ended : List Ended}
      {w w' : World} {message : String} (crashed : a.perform w = (.error message, w')) :
      Step s places (⟨waiting, before ++ ⟨f, number, .act a next⟩ :: after, ended⟩, w)
        (⟨waiting, before ++ after, ended ++ [⟨f, number, .crashed number f message⟩]⟩, w')
  /-- A task has come to its end. -/
  | finish {waiting : List (ParsedFile × Nat)} {before after : List Underway} {f : ParsedFile}
      {number : Nat} {o : FileOutcome} {ended : List Ended} {w : World} :
      Step s places (⟨waiting, before ++ ⟨f, number, .done o⟩ :: after, ended⟩, w)
        (⟨waiting, before ++ after, ended ++ [⟨f, number, o⟩]⟩, w)
  /-- The run is asked to stop, or that is taken back. -/
  | request {c : Crew} {w : World} (stop : Bool) :
      Step s places (c, w) (c, { w with cancelled := stop })

/-- Any number of steps. -/
abbrev Steps (s : Workshop) (places : Nat) : Crew × World → Crew × World → Prop :=
  Relation.ReflTransGen (Step s places)

end Crew

namespace Project

/-- What a run may come to, whichever task takes its turn when. -/
inductive RunsTo (p : Project) (w : World) : Except RunError RunReport × World → Prop
  | unscanned {e : RunError} (scanned : p.scan w = .error e) : RunsTo p w (.error e, w)
  | concluded {s : Scan} {ended : List Ended} {w' : World} (scanned : p.scan w = .ok s)
      (worked : Crew.Steps p.workshop p.config.parallelism (.start (workList s), w)
        (⟨[], [], ended⟩, w')) :
      RunsTo p w (p.conclude s (Crew.outcomes ⟨[], [], ended⟩) w')

end Project

end Marginalia
