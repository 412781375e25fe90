import Marginalia.Proofs.Project.History

/-!
Courses of tasks. A course tells what a task does from its beginning to its end, an action with its
answer at a time, whatever is done between them. Two courses of a task are the same, unless an
action is answered in another way. So what a task does and what it ends in hang on the answers
alone, and not on the other tasks or on the order in which all take turns.
-/

namespace Marginalia

namespace Task

variable {α β : Type} {t : Task α} {k : α → Task β} {ds ds' : List Deed}

/-- By these deeds the task comes to what is left of it. -/
inductive Leads : Task α → List Deed → Task α → Prop
  | start {t : Task α} : Leads t [] t
  | act {a : Action} {next : a.Answer → Task α} {answer : a.Answer} {ds : List Deed} {t' : Task α}
      (rest : Leads (next answer) ds t') : Leads (.act a next) (⟨a, .ok answer⟩ :: ds) t'

theorem Leads.trans {t' t'' : Task α} (h : t.Leads ds t') (h' : t'.Leads ds' t'') :
    t.Leads (ds ++ ds') t'' := by
  induction h with
  | start => exact h'
  | act rest ih => exact .act (ih h')

/-- The task may do these deeds from its beginning to its end, and end in a value or in the message
of a crash. -/
inductive Course : Task α → List Deed → Except String α → Prop
  | done (a : α) : Course (.done a) [] (.ok a)
  | act {a : Action} {next : a.Answer → Task α} {answer : a.Answer} {ds : List Deed}
      {e : Except String α} (rest : Course (next answer) ds e) :
      Course (.act a next) (⟨a, .ok answer⟩ :: ds) e
  | crash {a : Action} {next : a.Answer → Task α} {message : String} {w : World}
      (crashed : (a.perform w).1 = .error message) :
      Course (.act a next) [⟨a, .error message⟩] (.error message)

theorem Leads.course {t' : Task α} {e : Except String α} (h : t.Leads ds t')
    (h' : t'.Course ds' e) : t.Course (ds ++ ds') e := by
  induction h with
  | start => exact h'
  | act rest ih => exact .act (ih h')

theorem course_pure {a : α} {e : Except String α} (h : (pure a : Task α).Course ds e) :
    ds = [] ∧ e = .ok a := by
  cases (h : (Task.done a).Course ds e)
  exact ⟨rfl, rfl⟩

/-- What a task comes to hangs on what it has done. -/
theorem Course.end_unique {e e' : Except String α} (h : t.Course ds e) (h' : t.Course ds e') :
    e = e' := by
  induction h with
  | done a =>
    cases h'
    rfl
  | act rest ih =>
    cases h' with
    | act rest' => exact ih rest'
  | crash crashed =>
    cases h'
    rfl

/-- A task in two parts crashes in the first one, or goes on with the second one. -/
theorem Course.of_bind {e : Except String β} (h : (t >>= k).Course ds e) :
    (∃ message, e = .error message ∧ t.Course ds (.error message))
      ∨ ∃ a ds₁ ds₂, ds = ds₁ ++ ds₂ ∧ t.Course ds₁ (.ok a) ∧ (k a).Course ds₂ e := by
  induction t generalizing ds with
  | done a => exact .inr ⟨a, [], ds, rfl, .done a, h⟩
  | act a next ih =>
    cases (h : (Task.act a fun answer => (next answer).bind k).Course ds e) with
    | act rest =>
      rcases ih _ rest with ⟨message, rfl, hcrash⟩ | ⟨b, ds₁, ds₂, rfl, hfirst, hsecond⟩
      · exact .inl ⟨message, rfl, .act hcrash⟩
      · exact .inr ⟨b, _ :: ds₁, ds₂, rfl, .act hfirst, hsecond⟩
    | crash crashed => exact .inl ⟨_, rfl, .crash crashed⟩

/-- Looking whether the run is asked to stop never crashes. -/
theorem Course.of_isCancelled_bind {k : Bool → Task β} {e : Except String β}
    (h : (isCancelled >>= k).Course ds e) :
    ∃ stop rest, ds = ⟨.checkCancel, .ok stop⟩ :: rest ∧ (k stop).Course rest e := by
  cases (h : (Task.act .checkCancel k).Course ds e) with
  | act rest => exact ⟨_, _, rfl, rest⟩
  | crash crashed => cases crashed

/-- A single action crashes, or the task goes on with its answer. -/
theorem Course.of_once_bind {a : Action} {k : a.Answer → Task β} {e : Except String β}
    (h : (once a >>= k).Course ds e) :
    (∃ message, e = .error message ∧ ds = [⟨a, .error message⟩])
      ∨ ∃ answer rest, ds = ⟨a, .ok answer⟩ :: rest ∧ (k answer).Course rest e := by
  cases (h : (Task.act a k).Course ds e) with
  | act rest => exact .inr ⟨_, _, rfl, rest⟩
  | crash crashed => exact .inl ⟨_, rfl, rfl⟩

theorem course_once {a : Action} {answer : a.Answer} (h : (once a).Course ds (.ok answer)) :
    ds = [⟨a, .ok answer⟩] := by
  cases h with
  | act rest =>
    cases rest
    rfl

/-- A task that ends in a crash has done something that can crash. -/
theorem Course.exists_crash {message : String} (h : t.Course ds (.error message)) :
    ∃ a w, ⟨a, .error message⟩ ∈ ds ∧ (a.perform w).1 = .error message := by
  generalize he : Except.error message = e at h
  induction h with
  | done a => cases he
  | act rest ih =>
    obtain ⟨a, w, ha, hcrash⟩ := ih he
    exact ⟨a, w, List.mem_cons_of_mem _ ha, hcrash⟩
  | crash crashed =>
    cases he
    exact ⟨_, _, List.mem_cons_self, crashed⟩

/-- What a task does without a break is a course of it. -/
theorem course_deeds (t : Task α) (w : World) : t.Course (t.deeds w) (t.run w).1 := by
  induction t generalizing w with
  | done a => exact .done a
  | act a next ih =>
    rw [deeds, run]
    rcases hperform : a.perform w with ⟨message | answer, w'⟩
    · exact .crash (by rw [hperform])
    · exact .act (ih answer w')

/-- A task does only what it may do. -/
theorem Course.only {may : Action → Prop} {e : Except String α} (h : t.Course ds e)
    (ht : t.Only may) : ∀ d ∈ ds, may d.action := by
  induction h with
  | done a => exact fun d hd => absurd hd List.not_mem_nil
  | act rest ih =>
    intro d hd
    rcases List.mem_cons.1 hd with rfl | hd
    · exact ht.1
    · exact ih (ht.2 _) d hd
  | crash crashed =>
    intro d hd
    rw [List.mem_singleton.1 hd]
    exact ht.1

/-- What a task comes to is one of the ends that it can have. -/
theorem Course.endsIn {P : α → Prop} {a : α} (h : t.Course ds (.ok a)) (ht : t.EndsIn P) : P a := by
  generalize he : Except.ok a = e at h
  induction h with
  | done b =>
    obtain rfl := Except.ok.inj he
    exact ht
  | act rest ih => exact ih (ht _) he
  | crash crashed => cases he

end Task

/-- Actions that are in both lists have the same results there. -/
def AnswerAlike (ds ds' : List Deed) : Prop := ∀ d ∈ ds, ∀ d' ∈ ds', d.action = d'.action → d = d'

/-- A task whose actions are answered alike takes the same course. -/
theorem Task.Course.unique {α : Type} {t : Task α} {ds ds' : List Deed} {e e' : Except String α}
    (h : t.Course ds e) (h' : t.Course ds' e') (halike : AnswerAlike ds ds') :
    ds = ds' ∧ e = e' := by
  induction h generalizing ds' with
  | done a =>
    cases h'
    exact ⟨rfl, rfl⟩
  | @act a next answer ds e rest ih =>
    cases h' with
    | @act _ _ answer' ds' _ rest' =>
      have hsame := halike _ List.mem_cons_self _ List.mem_cons_self rfl
      obtain rfl : answer = answer' := by simpa using hsame
      obtain ⟨rfl, rfl⟩ := ih rest' fun d hd d' hd' =>
        halike d (List.mem_cons_of_mem _ hd) d' (List.mem_cons_of_mem _ hd')
      exact ⟨rfl, rfl⟩
    | crash crashed => cases halike _ List.mem_cons_self _ List.mem_cons_self rfl
  | @crash a next message w crashed =>
    cases h' with
    | act rest' => cases halike _ List.mem_cons_self _ List.mem_cons_self rfl
    | @crash _ _ message' w' crashed' =>
      have hsame := halike _ List.mem_cons_self _ List.mem_cons_self rfl
      obtain rfl : message = message' := by simpa using hsame
      exact ⟨rfl, rfl⟩

/-! ### What the work on a file may do -/

/-- What became of a file that was found to be left alone once its units were enriched. -/
def FileOutcome.halted (f : ParsedFile) (enriched : List (CodeUnit × EnrichReport)) :
    FileOutcome where
  units := enriched.map (·.1)
  reports := enriched.map (·.2)
  diagnostics := Workshop.enrichIssues f.file.relative enriched
    ++ [.ofFile f.file.relative .cancelled "cancelled before commit"]
  cancelled := true

section

variable {may : Action → Prop}

theorem only_obtain {α : Type} {call : Option (Task (Except ServiceError α))} {label : String}
    {rule : Source → α} (hcall : ∀ t, call = some t → may .spend ∧ t.Only may) :
    (obtain call label rule).Only may := by
  cases call with
  | none => exact Task.only_pure _
  | some t =>
    obtain ⟨hspend, ht⟩ := hcall t rfl
    refine (Task.only_once hspend).bind fun granted => ?_
    cases granted with
    | false => exact Task.only_pure _
    | true => exact ht.bind fun answer => by cases answer <;> exact Task.only_pure _

/-- Enriching a unit asks the services of the enricher, and the budget before. -/
theorem Enricher.only_enrich (e : Enricher)
    (hjudge : ∀ ask, e.judge = some ask → may .spend ∧ ∀ u, may (.judge ask u))
    (hdescribe : ∀ ask, e.describe = some ask → may .spend ∧ ∀ u, may (.describe ask u))
    (u : CodeUnit) : (e.enrich u).Only may := by
  have hverdict : (e.obtainVerdict u).Only may := by
    refine only_obtain fun t ht => ?_
    obtain ⟨ask, hask, rfl⟩ := Option.map_eq_some_iff.1 ht
    exact ⟨(hjudge ask hask).1, Task.only_once ((hjudge ask hask).2 u)⟩
  have hdescribed (u : CodeUnit) : (e.obtainAnnotation u).Only may := by
    refine only_obtain fun t ht => ?_
    obtain ⟨ask, hask, rfl⟩ := Option.map_eq_some_iff.1 ht
    exact ⟨(hdescribe ask hask).1, Task.only_once ((hdescribe ask hask).2 u)⟩
  refine hverdict.bind fun v => ?_
  dsimp only
  split
  · exact (hdescribed _).bind fun a => Task.only_pure _
  · exact Task.only_pure _

namespace Workshop

variable (s : Workshop)

/-- Offering a unit asks the index only. -/
theorem only_offer (hingest : ∀ u, may (.ingest s.index u)) (relative : String) (u : CodeUnit) :
    (s.offer relative u).Only may := by
  unfold offer
  split
  · refine Task.Only.bind (Task.only_once (hingest u)) fun answer => ?_
    cases answer <;> exact Task.only_pure _
  · exact Task.only_pure _

/-- What is left of the work on a file once its units are enriched and the run is not found asked to
stop: the text is brought in step, and the units are offered to the index. -/
def complete (f : ParsedFile) (enriched : List (CodeUnit × EnrichReport)) : Task FileOutcome := do
  let relative := f.file.relative
  let units := enriched.map (·.1)
  let (sync, syncIssues) := syncResult relative (← Task.renew {
    path := f.file.path
    language := f.file.language
    units := units
    lookback := s.lookback
    dryRun := s.dryRun })
  let offered ← units.mapM (s.offer relative)
  return {
    units := offered.map (·.unit)
    reports := enriched.map (·.2)
    sync := sync
    indexed := offered.countP (·.taken)
    diagnostics := enrichIssues relative enriched ++ syncIssues
      ++ offered.flatMap (·.diagnostics) }

/-- A request to stop is heeded before the units are enriched, once more behind that, and not
later. -/
theorem work_eq (f : ParsedFile) : s.work f = (do
    if ← Task.isCancelled then return .untouched f
    let enriched ← f.units.mapM s.enricher.enrich
    if ← Task.isCancelled then return .halted f enriched
    s.complete f enriched) := rfl

theorem only_complete (hfiles : ∀ a, a.isOnFiles = true → may a)
    (hingest : ∀ u, may (.ingest s.index u)) (f : ParsedFile)
    (enriched : List (CodeUnit × EnrichReport)) : (s.complete f enriched).Only may :=
  (Task.only_renew hfiles _).bind fun _ =>
    (Task.only_mapM _ (s.only_offer hingest _)).bind fun _ => Task.only_pure _

end Workshop

end

end Marginalia
