import Marginalia.Budget
import Marginalia.Service
import Marginalia.Tree

/-!
The world that a run works in: a file tree, the request to stop, the budget of service calls and the
number of calls that have been made.
-/

namespace Marginalia

/-- All that a run can change. -/
structure World where
  tree : FileTree
  /-- The run is asked to stop. -/
  cancelled : Bool
  budget : Budget
  /-- How many service calls have been made. -/
  calls : Nat
  deriving Repr

namespace World

/-- A world in which nothing has been done. -/
def start (tree : FileTree) (limit : Option Nat) : World := ⟨tree, false, .fresh limit, 0⟩

/-- Makes a change to a file; one that cannot be made is passed over. -/
def edit (w : World) (e : Edit) : World :=
  let tree :=
    match e with
    | .append path text =>
      match w.tree.openFile path with
      | .ok (serial, t) => t.change serial (·.append text)
      | .error _ => w.tree
    | .delete path => (w.tree.remove path).toOption.getD w.tree
  { w with tree := tree }

/-- The world after what a call does besides answering. -/
def afterCall {α : Type} (w : World) (r : Response α) : World :=
  r.edits.foldl edit { w with cancelled := w.cancelled || r.cancels, calls := w.calls + 1 }

/-- Changes the tree, if it can be changed so. -/
def change (w : World) (f : FileTree → Except FileError FileTree) : Except FileError Unit × World :=
  match f w.tree with
  | .ok t => (.ok (), { w with tree := t })
  | .error e => (.error e, w)

/-- Asks for one call of the budget. -/
def spend (w : World) : Bool × World := (w.budget.acquire.1, { w with budget := w.budget.acquire.2 })

/-- Editing a file leaves the budget alone. -/
theorem budget_edit (w : World) (e : Edit) : (w.edit e).budget = w.budget := rfl

/-- A call leaves the budget alone; it is taken before. -/
theorem budget_afterCall {α : Type} (w : World) (r : Response α) :
    (w.afterCall r).budget = w.budget := by
  have h (es : List Edit) (w : World) : (es.foldl edit w).budget = w.budget := by
    induction es generalizing w with
    | nil => rfl
    | cons e es ih => rw [List.foldl_cons, ih, budget_edit]
  exact h _ _

/-- Changing the tree leaves the budget alone. -/
theorem budget_change (w : World) (op : FileTree → Except FileError FileTree) :
    (w.change op).2.budget = w.budget := by
  unfold change
  split <;> rfl

end World

end Marginalia
