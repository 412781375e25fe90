import Marginalia.Proofs.Project.Crew

/-!
Histories. A history tells what the tasks of a crew have done, one action after the other, and how
each of them ended. There is one for every way to take turns, and each of its beginnings is the
history of a moment. What the budget has granted and refused can be read off a history. The history
of the run in which no task is interrupted can be computed.
-/

namespace Marginalia

/-- A service is called to judge or to describe a unit. -/
def Action.isCall : Action → Bool
  | judge .. | describe .. => true
  | _ => false

/-- What a task has done: an action, with its answer or the message of its crash. -/
structure Deed where
  action : Action
  result : Except String action.Answer

namespace Deed

/-- A call was asked of the budget and granted. -/
def isGrant : Deed → Bool
  | ⟨.spend, .ok granted⟩ => granted
  | _ => false

/-- A call was asked of the budget and refused. -/
def isRefusal : Deed → Bool
  | ⟨.spend, .ok granted⟩ => !granted
  | _ => false

/-- A call was made. -/
def isCall (d : Deed) : Bool := d.action.isCall

/-- A call brought a verdict. -/
def isVerdict : Deed → Bool
  | ⟨.judge .., .ok (.ok _)⟩ => true
  | _ => false

/-- The task found that the run is asked to stop. -/
def isStop : Deed → Bool
  | ⟨.checkCancel, .ok stop⟩ => stop
  | _ => false

/-- The work on a file is broken off: the run is to stop, or the action crashed. -/
def isBreak (d : Deed) : Bool := d.isStop || !d.result.isOk

@[simp] theorem isGrant_spend (granted : Bool) : isGrant ⟨.spend, .ok granted⟩ = granted := rfl

theorem isGrant_error (a : Action) (message : String) : isGrant ⟨a, .error message⟩ = false := by
  cases a <;> rfl

theorem isBreak_error (a : Action) (message : String) : isBreak ⟨a, .error message⟩ = true :=
  Bool.or_true _

@[simp] theorem isRefusal_spend (granted : Bool) : isRefusal ⟨.spend, .ok granted⟩ = !granted := rfl

end Deed

/-! ### The budget under a deed -/

namespace Budget

/-- No more has been taken from the budget than its limit. -/
def IsKept (q : Budget) : Prop := ∀ limit, q.limit = some limit → q.used ≤ limit

variable {q : Budget}

/-- A budget is spent when just its limit has been taken from it. -/
theorem IsKept.isSpent_iff (h : q.IsKept) : q.isSpent = true ↔ q.limit = some q.used := by
  unfold isSpent
  cases hlimit : q.limit with
  | none => simp
  | some limit =>
    have hused := h limit hlimit
    simp only [decide_eq_true_eq, Option.some.injEq]
    omega

/-- A grant keeps the limit of a budget that is not spent. -/
theorem IsKept.grant (h : q.IsKept) (hspent : q.isSpent = false) :
    { q with used := q.used + 1 }.IsKept := by
  intro limit hlimit
  have hused := h limit hlimit
  have hne : q.used ≠ limit := by
    rintro rfl
    rw [h.isSpent_iff.2 hlimit] at hspent
    cases hspent
  change q.used + 1 ≤ limit
  omega

end Budget

/-- Only a grant is taken from the budget, and whether there is one depends on what is left. -/
structure Deed.Fits (d : Deed) (before after : Budget) : Prop where
  taken : after = { before with used := before.used + d.isGrant.toNat }
  grant : d.isGrant = true → before.isSpent = false
  refusal : d.isRefusal = true → before.isSpent = true

theorem Deed.fits_of_idle {d : Deed} {q : Budget} (hgrant : d.isGrant = false)
    (hrefusal : d.isRefusal = false) : d.Fits q q := by
  refine ⟨?_, ?_, ?_⟩ <;> simp [hgrant, hrefusal]

/-- Whatever a task does, the budget fits it. -/
theorem Action.fits_perform {a : Action} {w w' : World} {result : Except String a.Answer}
    (h : a.perform w = (result, w')) : (Deed.mk a result).Fits w.budget w'.budget := by
  rw [Prod.ext_iff] at h
  obtain ⟨rfl, rfl⟩ := h
  cases a with
  | spend =>
    simp only [perform, World.spend, w.budget.acquire_eq]
    refine ⟨rfl, ?_, ?_⟩
    · rw [Deed.isGrant_spend, Bool.not_eq_true']
      exact id
    · rw [Deed.isRefusal_spend, Bool.not_not]
      exact id
  | checkCancel => refine Deed.fits_of_idle ?_ ?_ <;> rfl
  | judge ask u =>
    simp only [perform, World.budget_afterCall]
    refine Deed.fits_of_idle ?_ ?_ <;> rfl
  | describe ask u =>
    simp only [perform, World.budget_afterCall]
    refine Deed.fits_of_idle ?_ ?_ <;> rfl
  | readFile path => refine Deed.fits_of_idle ?_ ?_ <;> rfl
  | writeFile path text =>
    simp only [perform, World.budget_change]
    refine Deed.fits_of_idle ?_ ?_ <;> rfl
  | moveFile source target =>
    simp only [perform, World.budget_change]
    refine Deed.fits_of_idle ?_ ?_ <;> rfl
  | removeFile path =>
    simp only [perform, World.budget_change]
    refine Deed.fits_of_idle ?_ ?_ <;> rfl
  | ingest i u =>
    simp only [perform, Index.budget_ingest]
    refine Deed.fits_of_idle ?_ ?_ <;> rfl

namespace Crew

variable {s : Workshop} {places : Nat}

/-! ### What happens in a step -/

/-- A step, with what a task does in it if it is the turn of one. -/
inductive Move (s : Workshop) (places : Nat) : Crew × World → List Deed → Crew × World → Prop
  | begin {before after : List (ParsedFile × Nat)} {f : ParsedFile} {number : Nat}
      {underway : List Underway} {ended : List Ended} {w : World}
      (free : underway.length < places) :
      Move s places (⟨before ++ (f, number) :: after, underway, ended⟩, w) []
        (⟨before ++ after, underway ++ [⟨f, number, s.work f⟩], ended⟩, w)
  | act {waiting : List (ParsedFile × Nat)} {before after : List Underway} {f : ParsedFile}
      {number : Nat} {a : Action} {next : a.Answer → Task FileOutcome} {ended : List Ended}
      {w w' : World} {answer : a.Answer} (done : a.perform w = (.ok answer, w')) :
      Move s places (⟨waiting, before ++ ⟨f, number, .act a next⟩ :: after, ended⟩, w)
        [⟨a, .ok answer⟩] (⟨waiting, before ++ ⟨f, number, next answer⟩ :: after, ended⟩, w')
  | crash {waiting : List (ParsedFile × Nat)} {before after : List Underway} {f : ParsedFile}
      {number : Nat} {a : Action} {next : a.Answer → Task FileOutcome} {ended : List Ended}
      {w w' : World} {message : String} (crashed : a.perform w = (.error message, w')) :
      Move s places (⟨waiting, before ++ ⟨f, number, .act a next⟩ :: after, ended⟩, w)
        [⟨a, .error message⟩]
        (⟨waiting, before ++ after, ended ++ [⟨f, number, .crashed number f message⟩]⟩, w')
  | finish {waiting : List (ParsedFile × Nat)} {before after : List Underway} {f : ParsedFile}
      {number : Nat} {o : FileOutcome} {ended : List Ended} {w : World} :
      Move s places (⟨waiting, before ++ ⟨f, number, .done o⟩ :: after, ended⟩, w) []
        (⟨waiting, before ++ after, ended ++ [⟨f, number, o⟩]⟩, w)
  | request {c : Crew} {w : World} (stop : Bool) :
      Move s places (c, w) [] (c, { w with cancelled := stop })

theorem step_iff_move {x y : Crew × World} :
    Step s places x y ↔ ∃ deeds, Move s places x deeds y := by
  constructor
  · intro h
    cases h with
    | begin free => exact ⟨_, .begin free⟩
    | act done => exact ⟨_, .act done⟩
    | crash crashed => exact ⟨_, .crash crashed⟩
    | finish => exact ⟨_, .finish⟩
    | request stop => exact ⟨_, .request stop⟩
  · rintro ⟨deeds, h⟩
    cases h with
    | begin free => exact .begin free
    | act done => exact .act done
    | crash crashed => exact .crash crashed
    | finish => exact .finish
    | request stop => exact .request stop

/-- Steps, with all that the tasks do in them. -/
inductive History (s : Workshop) (places : Nat) (x : Crew × World) :
    List Deed → Crew × World → Prop
  | start : History s places x [] x
  | move {past deeds : List Deed} {y z : Crew × World} (before : History s places x past y)
      (move : Move s places y deeds z) : History s places x (past ++ deeds) z

/-- Every way to take turns has a history. -/
theorem steps_iff_history {x y : Crew × World} :
    Steps s places x y ↔ ∃ deeds, History s places x deeds y := by
  constructor
  · intro h
    induction h with
    | refl => exact ⟨[], .start⟩
    | tail _ step ih =>
      obtain ⟨past, before⟩ := ih
      obtain ⟨deeds, move⟩ := step_iff_move.1 step
      exact ⟨past ++ deeds, before.move move⟩
  · rintro ⟨deeds, h⟩
    induction h with
    | start => exact .refl
    | move _ move ih => exact ih.tail (step_iff_move.2 ⟨_, move⟩)

theorem Move.history {x y : Crew × World} {deeds : List Deed} (h : Move s places x deeds y) :
    History s places x deeds y := History.start.move h

theorem History.trans {x y z : Crew × World} {past later : List Deed}
    (h : History s places x past y) (h' : History s places y later z) :
    History s places x (past ++ later) z := by
  induction h' with
  | start => rwa [List.append_nil]
  | move _ move ih =>
    rw [← List.append_assoc]
    exact ih.move move

/-! ### The budget along a history -/

/-- In a step the budget stays as it is, or it fits what a task does. -/
theorem Move.fits {x y : Crew × World} {deeds : List Deed} (h : Move s places x deeds y) :
    deeds = [] ∧ y.2.budget = x.2.budget ∨ ∃ d, deeds = [d] ∧ d.Fits x.2.budget y.2.budget := by
  cases h with
  | begin free => exact .inl ⟨rfl, rfl⟩
  | act done => exact .inr ⟨_, rfl, Action.fits_perform done⟩
  | crash crashed => exact .inr ⟨_, rfl, Action.fits_perform crashed⟩
  | finish => exact .inl ⟨rfl, rfl⟩
  | request stop => exact .inl ⟨rfl, rfl⟩

namespace History

variable {x y : Crew × World} {deeds : List Deed}

/-- What has been taken from the budget are the grants. -/
theorem budget (h : History s places x deeds y) :
    y.2.budget = { x.2.budget with used := x.2.budget.used + deeds.countP (·.isGrant) } := by
  induction h with
  | start => rfl
  | move _ move ih =>
    rcases move.fits with ⟨rfl, hbudget⟩ | ⟨d, rfl, hfits⟩
    · rw [hbudget, ih, List.append_nil]
    · rw [hfits.taken, ih, List.countP_append, List.countP_singleton, Nat.add_assoc]
      cases d.isGrant <;> rfl

/-- The limit is never exceeded. -/
theorem isKept (h : History s places x deeds y) (hx : x.2.budget.IsKept) :
    y.2.budget.IsKept := by
  induction h with
  | start => exact hx
  | move _ move ih =>
    rcases move.fits with ⟨rfl, hbudget⟩ | ⟨d, rfl, hfits⟩
    · rwa [hbudget]
    · rw [hfits.taken]
      cases hgrant : d.isGrant with
      | false => exact ih
      | true => exact ih.grant (hfits.grant hgrant)

/-- Once the budget is spent it grants nothing more. -/
theorem isSpent (h : History s places x deeds y) (hx : x.2.budget.isSpent = true) :
    y.2.budget.isSpent = true ∧ ∀ d ∈ deeds, d.isGrant = false := by
  induction h with
  | start => exact ⟨hx, fun d hd => absurd hd List.not_mem_nil⟩
  | move _ move ih =>
    obtain ⟨hspent, hpast⟩ := ih
    rcases move.fits with ⟨rfl, hbudget⟩ | ⟨d, rfl, hfits⟩
    · rw [hbudget, List.append_nil]
      exact ⟨hspent, hpast⟩
    have hgrant : d.isGrant = false := by
      cases hd : d.isGrant with
      | false => rfl
      | true => exact hspent.symm.trans (hfits.grant hd)
    refine ⟨?_, ?_⟩
    · rw [hfits.taken, hgrant]
      exact hspent
    · intro e he
      rcases List.mem_append.1 he with he | he
      · exact hpast e he
      · rwa [List.mem_singleton.1 he]

end History

end Crew

/-! ### Without interruption -/

/-- What a task does without a break. -/
def Task.deeds {α : Type} : Task α → World → List Deed
  | done _, _ => []
  | act a next, w =>
    match a.perform w with
    | (.ok answer, w) => ⟨a, .ok answer⟩ :: (next answer).deeds w
    | (.error message, _) => [⟨a, .error message⟩]

/-- What is done when the work is done on files one after the other. -/
def Workshop.deeds (s : Workshop) : List (ParsedFile × Nat) → World → List Deed
  | [], _ => []
  | (f, number) :: rest, w => (s.work f).deeds w ++ s.deeds rest (s.finish number f w).2

end Marginalia
