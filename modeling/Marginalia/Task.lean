import Marginalia.Index
import Marginalia.Synchronize.File

/-!
Tasks. A task is a sequence of actions, each of which is done as a whole, so that several tasks can
take turns between them. What comes next in a task depends on what its actions answer. An action may
crash, and then its task ends; what has been changed by then stays changed. Bringing a file in step
takes several actions, one for each time that the file tree is asked for something.
-/

namespace Marginalia

/-- A source file that is to be brought in step with its units. -/
structure Renewal where
  path : String
  language : Language
  units : List CodeUnit
  lookback : Nat
  dryRun : Bool

/-- What became of a file that could be read. -/
structure Renewed where
  outcome : SyncOutcome
  committed : Except SyncError Unit

/-- Reads a file, brings its text in step and writes it back, without a break. -/
def Renewal.perform (r : Renewal) (t : FileTree) : Except FileError Renewed × FileTree :=
  match t.readText r.path with
  | .error e => (.error e, t)
  | .ok text =>
    let o := synchronize r.lookback text r.language r.units
    let (done, t) := commitOutcome t r.path o r.dryRun
    (.ok ⟨o, done⟩, t)

/-- What a task does in the world at one time. -/
inductive Action where
  /-- Looks whether the run is asked to stop. -/
  | checkCancel
  /-- Asks for one call of the budget. -/
  | spend
  | judge (service : Service Verdict) (u : CodeUnit)
  | describe (service : Service Annotation) (u : CodeUnit)
  | readFile (path : String)
  | writeFile (path text : String)
  | moveFile (source target : String)
  | removeFile (path : String)
  | ingest (index : Index) (u : CodeUnit)

namespace Action

/-- What an action answers. -/
def Answer : Action → Type
  | checkCancel | spend => Bool
  | judge .. => Except ServiceError Verdict
  | describe .. => Except ServiceError Annotation
  | readFile _ => Except FileError String
  | writeFile .. | moveFile .. | removeFile _ => Except FileError Unit
  | ingest .. => Except ServiceError String

/-- How a call ends, as an answer or a crash. -/
def ofResult {α : Type} : CallResult α → Except String (Except ServiceError α)
  | .answer a => .ok (.ok a)
  | .failure e => .ok (.error e)
  | .crash message => .error message

/-- Does an action: its answer or the message of its crash, and the world behind it. -/
def perform : (a : Action) → World → Except String a.Answer × World
  | checkCancel, w => (.ok w.cancelled, w)
  | spend, w => (.ok w.spend.1, w.spend.2)
  | judge ask u, w => (ofResult (ask w.calls u).result, w.afterCall (ask w.calls u))
  | describe ask u, w => (ofResult (ask w.calls u).result, w.afterCall (ask w.calls u))
  | readFile path, w => (.ok (w.tree.readText path), w)
  | writeFile path text, w => (.ok (w.change (·.writeText path text)).1,
      (w.change (·.writeText path text)).2)
  | moveFile source target, w => (.ok (w.change (·.rename source target)).1,
      (w.change (·.rename source target)).2)
  | removeFile path, w => (.ok (w.change (·.remove path)).1, (w.change (·.remove path)).2)
  | ingest index u, w =>
    let (result, w) := index.ingest u w
    (ofResult result, w)

end Action

/-- A sequence of actions that ends in a value. -/
inductive Task (α : Type) where
  | done (a : α)
  | act (a : Action) (next : a.Answer → Task α)

namespace Task

/-- Goes on with another task. -/
def bind {α β : Type} : Task α → (α → Task β) → Task β
  | done a, f => f a
  | act a next, f => act a fun answer => (next answer).bind f

instance : Monad Task where
  pure := done
  bind := bind

theorem bind_done {α : Type} (t : Task α) : t.bind done = t := by
  induction t with
  | done a => rfl
  | act a next ih => simp [bind, ih]

theorem bind_assoc {α β γ : Type} (t : Task α) (f : α → Task β) (g : β → Task γ) :
    (t.bind f).bind g = t.bind fun a => (f a).bind g := by
  induction t with
  | done a => rfl
  | act a next ih => simp [bind, ih]

instance : LawfulMonad Task :=
  LawfulMonad.mk' Task (fun t => bind_done t) (fun _ _ => rfl) (fun t f g => bind_assoc t f g)

/-- The task of one action. -/
def once (a : Action) : Task a.Answer := act a done

/-- Looks whether the run is asked to stop. -/
def isCancelled : Task Bool := once .checkCancel

/-- Asks for one call of the budget. -/
def spend : Task Bool := once .spend

/-- Hands a unit to an index. -/
def ingest (index : Index) (u : CodeUnit) : Task (Except ServiceError String) :=
  once (.ingest index u)

/-! ### Bringing files in step -/

/-- Writes a text to a path by way of a temporary file, which is removed again if it cannot be moved
to its place. -/
def replaceBy (path temporary text : String) : Task (Except FileError Unit) := do
  match ← once (.writeFile temporary text) with
  | .error e => return .error e
  | .ok () =>
    match ← once (.moveFile temporary path) with
    | .ok () => return .ok ()
    | .error e =>
      let _ ← once (.removeFile temporary)
      return .error e

/-- Puts a text in the place of a file, by way of a hidden file beside it. -/
def commit (path text : String) : Task (Except SyncError Unit) :=
  match besidePath? path with
  | none => return .error (.notAFile path)
  | some beside => do
    let done ← replaceBy path beside text
    return done.mapError .file

/-- Puts the text of an outcome in the place of a file, if it is another one and not only tried. -/
def commitOutcome (path : String) (o : SyncOutcome) (dryRun : Bool) :
    Task (Except SyncError Unit) :=
  if o.changed && !dryRun then commit path o.text else return .ok ()

/-- Reads a file, brings its text in step and writes it back. -/
def renew (r : Renewal) : Task (Except FileError Renewed) := do
  match ← once (.readFile r.path) with
  | .error e => return .error e
  | .ok text =>
    let o := synchronize r.lookback text r.language r.units
    let done ← commitOutcome r.path o r.dryRun
    return .ok ⟨o, done⟩

/-! ### Running -/

/-- Does all actions of a task without a break. -/
def run {α : Type} : Task α → World → Except String α × World
  | done a, w => (.ok a, w)
  | act a next, w =>
    match a.perform w with
    | (.ok answer, w) => (next answer).run w
    | (.error message, w) => (.error message, w)

/-- One task after the other is run as if they were one. -/
theorem run_bind {α β : Type} (t : Task α) (f : α → Task β) (w : World) :
    (t.bind f).run w
      = match t.run w with
        | (.ok a, w) => (f a).run w
        | (.error message, w) => (.error message, w) := by
  induction t generalizing w with
  | done a => rfl
  | act a next ih =>
    simp only [bind, run]
    split
    · exact ih _ _
    · rfl

theorem run_once_bind {β : Type} (a : Action) (f : a.Answer → Task β) (w : World) :
    (once a >>= f).run w
      = match a.perform w with
        | (.ok answer, w) => (f answer).run w
        | (.error message, w) => (.error message, w) := by
  change (act a fun answer => (done answer).bind f).run w = _
  simp only [run, bind]

/-- Without a break, the actions that replace a file do what replacing it as a whole does. -/
theorem run_replaceBy (path temporary text : String) (w : World) :
    (replaceBy path temporary text).run w = (.ok (w.tree.replaceBy path temporary text).1,
      { w with tree := (w.tree.replaceBy path temporary text).2 }) := by
  unfold replaceBy FileTree.replaceBy
  rw [run_once_bind]
  cases hw : w.tree.writeText temporary text with
  | error e => simp [Action.perform, World.change, hw, run, pure]
  | ok written =>
    simp only [Action.perform, World.change, hw, run_once_bind]
    cases hm : written.rename temporary path with
    | ok moved => rfl
    | error e =>
      simp only [run_once_bind, Action.perform, World.change]
      cases hr : written.remove temporary <;> rfl

/-- Without a break, the actions that bring a file in step do it as a whole. -/
theorem run_renew (r : Renewal) (w : World) :
    (renew r).run w = (.ok (r.perform w.tree).1, { w with tree := (r.perform w.tree).2 }) := by
  unfold renew Renewal.perform
  rw [run_once_bind]
  cases hr : w.tree.readText r.path with
  | error e => simp [Action.perform, hr, run, pure]
  | ok text =>
    simp only [Action.perform, hr, commitOutcome, Marginalia.commitOutcome]
    split
    · simp only [commit, Marginalia.commit]
      cases besidePath? r.path with
      | none => rfl
      | some beside =>
        change ((replaceBy r.path beside _).bind _ |>.bind _).run w = _
        rw [bind_assoc, run_bind, run_replaceBy]
        rfl
    · rfl

end Task

end Marginalia
