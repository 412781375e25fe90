/-!
The budget of service calls. Every call takes one from it; once it is spent every further request is
refused.
-/

namespace Marginalia

/-- A budget, unlimited if it has no limit, and what has been taken from it. -/
structure Budget where
  limit : Option Nat
  used : Nat
  deriving DecidableEq, Repr

namespace Budget

/-- A budget of which nothing has been taken. -/
def fresh (limit : Option Nat) : Budget := ⟨limit, 0⟩

/-- There is a limit and it has been reached. -/
def isSpent (q : Budget) : Bool :=
  match q.limit with
  | none => false
  | some limit => limit ≤ q.used

/-- Asks for one call: whether it is granted, and the budget behind it. -/
def acquire (q : Budget) : Bool × Budget :=
  if q.isSpent then (false, q) else (true, { q with used := q.used + 1 })

/-- What is left, if there is a limit. -/
def remaining (q : Budget) : Option Nat := q.limit.map (· - q.used)

/-- A request for a call is granted, and counted, unless the budget is spent. -/
theorem acquire_eq (q : Budget) :
    q.acquire = (!q.isSpent, { q with used := q.used + (!q.isSpent).toNat }) := by
  unfold acquire
  cases q.isSpent <;> rfl

end Budget

end Marginalia
