import Mathlib.Data.List.Forall2
import Marginalia.Task

/-!
What tasks end in and which actions they do, whatever these answer. A property of all ends of a task
is put together from its parts, and it holds of what the task ends in when other tasks take turns
with it, for their actions only change what its own ones answer. The same goes for a property of all
actions.
-/

namespace Marginalia

/-- The action asks for something of the file tree. -/
def Action.isOnFiles : Action → Bool
  | readFile _ | writeFile .. | moveFile .. | removeFile _ => true
  | _ => false

namespace Task

variable {α β : Type} {P : α → Prop}

/-- However a task goes on, what it ends in has a property. -/
def EndsIn (P : α → Prop) : Task α → Prop
  | done a => P a
  | act _ next => ∀ answer, (next answer).EndsIn P

theorem endsIn_pure {a : α} (h : P a) : EndsIn P (pure a : Task α) := h

/-- A task in two parts ends in what the second one ends in behind the first. -/
theorem EndsIn.bind {Q : β → Prop} {t : Task α} {f : α → Task β} (h : t.EndsIn P)
    (hf : ∀ a, P a → (f a).EndsIn Q) : (t >>= f).EndsIn Q := by
  induction t with
  | done a => exact hf a h
  | act a next ih => exact fun answer => ih answer (h answer)

theorem endsIn_true (t : Task α) : t.EndsIn fun _ => True := by
  induction t with
  | done a => trivial
  | act a next ih => exact fun answer => ih answer

/-- A task for each element ends in a value for each. -/
theorem endsIn_mapM {R : α → β → Prop} {f : α → Task β} {as : List α}
    (h : ∀ a ∈ as, (f a).EndsIn (R a)) : (as.mapM f).EndsIn (List.Forall₂ R as) := by
  induction as with
  | nil =>
    rw [List.mapM_nil]
    exact endsIn_pure .nil
  | cons a as ih =>
    rw [List.mapM_cons]
    refine (h a List.mem_cons_self).bind fun b hb => ?_
    exact (ih fun a ha => h a (List.mem_cons_of_mem _ ha)).bind fun bs hbs =>
      endsIn_pure (.cons hb hbs)

/-! ### Actions -/

/-- Whatever comes next in the task, all its actions have a property. -/
def Only (may : Action → Prop) : Task α → Prop
  | done _ => True
  | act a next => may a ∧ ∀ answer, (next answer).Only may

variable {may : Action → Prop}

theorem only_pure (a : α) : (pure a : Task α).Only may := trivial

theorem only_once {a : Action} (h : may a) : (once a).Only may := ⟨h, fun _ => trivial⟩

theorem Only.bind {t : Task α} {k : α → Task β} (h : t.Only may) (hk : ∀ a, (k a).Only may) :
    (t >>= k).Only may := by
  induction t with
  | done a => exact hk a
  | act a next ih => exact ⟨h.1, fun answer => ih answer (h.2 answer)⟩

theorem only_mapM {k : α → Task β} (as : List α) (h : ∀ a, (k a).Only may) :
    (as.mapM k).Only may := by
  induction as with
  | nil =>
    rw [List.mapM_nil]
    exact only_pure _
  | cons a as ih =>
    rw [List.mapM_cons]
    exact (h a).bind fun b => ih.bind fun bs => only_pure _

section

variable (h : ∀ a, a.isOnFiles = true → may a)

include h

theorem only_replaceBy (path temporary text : String) :
    (replaceBy path temporary text).Only may := by
  refine (only_once (h _ rfl)).bind fun written => ?_
  rcases written with e | -
  · exact only_pure _
  refine (only_once (h _ rfl)).bind fun moved => ?_
  rcases moved with e | -
  · exact (only_once (h _ rfl)).bind fun _ => only_pure _
  · exact only_pure _

theorem only_commitOutcome (path : String) (o : SyncOutcome) (dryRun : Bool) :
    (commitOutcome path o dryRun).Only may := by
  unfold commitOutcome
  split
  · unfold commit
    split
    · exact only_pure _
    · exact (only_replaceBy h _ _ _).bind fun _ => only_pure _
  · exact only_pure _

/-- Bringing a file in step asks for nothing but files. -/
theorem only_renew (r : Renewal) : (renew r).Only may := by
  refine (only_once (a := .readFile r.path) (h _ rfl)).bind fun read => ?_
  rcases read with e | text
  · exact only_pure _
  · dsimp only
    generalize synchronize r.lookback text r.language r.units = o
    exact (only_commitOutcome h _ _ _).bind fun _ => only_pure _

end

end Task

end Marginalia
