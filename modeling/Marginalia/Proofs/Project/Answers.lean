import Marginalia.Proofs.Project.Journal

/-!
What actions answer when nothing of what happens between them has a say in it: a service goes by
the unit alone, the budget has no limit or is spent already, and nobody asks for the run to stop.
What an action answers can then be told beforehand, whoever's turn it is.
-/

namespace Marginalia

/-- What a call of the service ends in hangs on the unit alone. -/
def AnswersByUnit {α : Type} (ask : Service α) : Prop :=
  ∀ calls calls' u, (ask calls u).result = (ask calls' u).result

/-- The services of a project go by the unit alone. -/
structure Workshop.AnswersByUnit (s : Workshop) : Prop where
  judge : ∀ ask, s.enricher.judge = some ask → Marginalia.AnswersByUnit ask
  describe : ∀ ask, s.enricher.describe = some ask → Marginalia.AnswersByUnit ask
  ingest : ∀ ask, s.index = .service ask → Marginalia.AnswersByUnit ask

namespace Budget

variable {q q' : Budget}

/-- The budget has no limit, or it is spent. -/
def IsSteady (q : Budget) : Prop := q.limit = none ∨ q.isSpent = true

/-- Whatever is taken from it, a steady budget goes on granting calls, or refusing them. -/
theorem IsSteady.isSpent_eq (h : q.IsSteady) (hlimit : q'.limit = q.limit)
    (hused : q.used ≤ q'.used) : q'.isSpent = q.isSpent := by
  rcases h with hnone | hspent
  · simp only [isSpent, hlimit, hnone]
  · rw [hspent]
    unfold isSpent at hspent ⊢
    rw [hlimit]
    split at hspent
    · cases hspent
    · have hreached := of_decide_eq_true hspent
      exact decide_eq_true (Nat.le_trans hreached hused)

end Budget

/-! ### The actions of a run -/

/-- The action asks for what the workshop has. -/
def Workshop.Employs (s : Workshop) : Action → Prop
  | .spend => s.enricher.hasModel = true
  | .judge ask _ => s.enricher.judge = some ask
  | .describe ask _ => s.enricher.describe = some ask
  | .ingest i _ => i = s.index
  | _ => True

theorem Workshop.only_work (s : Workshop) (f : ParsedFile) : (s.work f).Only s.Employs := by
  have hfiles : ∀ a : Action, a.isOnFiles = true → s.Employs a := by
    intro a ha
    cases a <;> trivial
  rw [work_eq]
  refine (Task.only_once trivial).bind fun stop => ?_
  cases stop with
  | true => exact Task.only_pure _
  | false =>
  refine (Task.only_mapM _ fun u => s.enricher.only_enrich (fun ask hask => ⟨?_, fun _ => hask⟩)
    (fun ask hask => ⟨?_, fun _ => hask⟩) u).bind fun enriched => ?_
  · simp [Employs, Enricher.hasModel, hask]
  · simp [Employs, Enricher.hasModel, hask]
  refine (Task.only_once trivial).bind fun stop => ?_
  cases stop with
  | true => exact Task.only_pure _
  | false => exact s.only_complete hfiles (fun _ => rfl) f enriched

/-- What has nothing to do with files is answered alike in two worlds, unless one of them grants
calls and the other one does not, or the run is asked to stop in one of them only. -/
theorem Action.perform_alike {s : Workshop} (hs : s.AnswersByUnit) {a : Action} (ha : s.Employs a)
    {w w' : World} (hfiles : a.isOnFiles = false)
    (hbudget : s.enricher.hasModel = true → w.budget.isSpent = w'.budget.isSpent)
    (hcancelled : a = .checkCancel → w.cancelled = w'.cancelled) :
    (a.perform w).1 = (a.perform w').1 := by
  cases a with
  | checkCancel => exact congrArg Except.ok (hcancelled rfl)
  | spend => simp only [perform, World.spend, Budget.acquire_eq, hbudget ha]
  | judge ask u => exact congrArg ofResult (hs.judge ask ha _ _ _)
  | describe ask u => exact congrArg ofResult (hs.describe ask ha _ _ _)
  | ingest i u =>
    obtain rfl : i = s.index := ha
    cases hi : s.index with
    | null => rfl
    | file serial => rfl
    | service ask => exact congrArg ofResult (hs.ingest ask hi _ _ _)
  | _ => cases hfiles

/-! ### Answers in a journal -/

namespace Crew

variable {s : Workshop} {places : Nat}

/-- Whatever a journal tells has been done in a world in which no less was taken from the budget. -/
theorem Journal.performed {x y : Crew × World} {log : List (ParsedFile × Deed)}
    (h : Journal s places x log y) : ∀ z ∈ log, ∃ w : World,
      z.2.result = (z.2.action.perform w).1 ∧ w.budget.limit = x.2.budget.limit
        ∧ x.2.budget.used ≤ w.budget.used := by
  induction h with
  | start => exact fun z hz => absurd hz List.not_mem_nil
  | @turn past now y z before turn ih =>
    have hbudget := before.history.budget
    intro z hz
    rcases List.mem_append.1 hz with hz | hz
    · exact ih z hz
    rcases turn.idle_or_acts with ⟨rfl, -⟩ | ⟨u, -, a, next, -, rfl, -⟩
    · cases hz
    · rw [List.mem_singleton.1 hz]
      exact ⟨y.2, rfl, by rw [hbudget], by rw [hbudget]; exact Nat.le_add_right _ _⟩

/-- Actions that have nothing to do with files are answered alike in two journals of runs that
nobody asks to stop. -/
theorem Journal.answers_alike {places' : Nat} {x y x' y' : Crew × World}
    {log log' : List (ParsedFile × Deed)} (hs : s.AnswersByUnit) {q : Budget}
    (hbudget : s.enricher.hasModel = true → q.IsSteady) (hx : x.2.budget = q)
    (hx' : x'.2.budget = q) (h : Journal s places x log y) (h' : Journal s places' x' log' y')
    (hstop : ∀ z ∈ log, z.2.isStop = false) (hstop' : ∀ z ∈ log', z.2.isStop = false)
    {z z' : ParsedFile × Deed} (hz : z ∈ log) (hz' : z' ∈ log') (haction : z.2.action = z'.2.action)
    (hemploys : s.Employs z.2.action) (hfiles : z.2.action.isOnFiles = false) : z.2 = z'.2 := by
  obtain ⟨w, hw, hlimit, hused⟩ := h.performed z hz
  obtain ⟨w', hw', hlimit', hused'⟩ := h'.performed z' hz'
  have hstop := hstop z hz
  have hstop' := hstop' z' hz'
  obtain ⟨f, a, result⟩ := z
  obtain ⟨f', a', result'⟩ := z'
  obtain rfl : a = a' := haction
  obtain rfl : result = (a.perform w).1 := hw
  obtain rfl : result' = (a.perform w').1 := hw'
  refine congrArg (Deed.mk a) (Action.perform_alike hs hemploys hfiles (fun hmodel => ?_) ?_)
  · rw [hx] at hlimit hused
    rw [hx'] at hlimit' hused'
    rw [(hbudget hmodel).isSpent_eq hlimit hused, (hbudget hmodel).isSpent_eq hlimit' hused']
  · rintro rfl
    exact (Eq.trans hstop hstop'.symm : w.cancelled = w'.cancelled)

end Crew

end Marginalia
