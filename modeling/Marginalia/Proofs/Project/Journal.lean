import Marginalia.Proofs.Project.Courses

/-!
Journals. A journal tells what the tasks of a crew have done, and on which file. What is written
there about one file is what its own task has done, in its own order; so when all tasks have ended,
it is a course of the work on the file, and the outcome is the end of that course. The run in which
no task is interrupted is one of the runs, and its journal can be computed.
-/

namespace Marginalia

/-- What has been done on a file. -/
def deedsOf (log : List (ParsedFile × Deed)) (f : ParsedFile) : List Deed :=
  (log.filter fun x => x.1 = f).map (·.2)

section

variable {log : List (ParsedFile × Deed)} {f g : ParsedFile} {d : Deed}

theorem deedsOf_append (log later : List (ParsedFile × Deed)) (f : ParsedFile) :
    deedsOf (log ++ later) f = deedsOf log f ++ deedsOf later f := by
  simp [deedsOf]

theorem deedsOf_concat_self (log : List (ParsedFile × Deed)) (f : ParsedFile) (d : Deed) :
    deedsOf (log ++ [(f, d)]) f = deedsOf log f ++ [d] := by
  simp [deedsOf]

theorem deedsOf_concat_of_ne (h : g ≠ f) : deedsOf (log ++ [(f, d)]) g = deedsOf log g := by
  simp [deedsOf, h.symm]

theorem mem_deedsOf : d ∈ deedsOf log f ↔ (f, d) ∈ log := by
  simp [deedsOf]

/-- Journals that tell the same about each file tell the same in another order. -/
theorem perm_of_deedsOf_eq {log log' : List (ParsedFile × Deed)}
    (h : ∀ f, deedsOf log f = deedsOf log' f) : log.Perm log' := by
  induction log generalizing log' with
  | nil =>
    obtain rfl : log' = [] := by
      refine List.eq_nil_iff_forall_not_mem.2 fun x hx => ?_
      have hmem := mem_deedsOf.2 hx
      rw [← h x.1] at hmem
      cases hmem
    exact .refl _
  | cons x log ih =>
    obtain ⟨f, d⟩ := x
    -- the first thing done on the file stands behind things done on other files
    have hfirst : deedsOf log' f = d :: deedsOf log f := by
      rw [← h f]
      simp [deedsOf]
    obtain ⟨before, after, rfl, hbefore, hafter⟩ : ∃ before after, log' = before ++ (f, d) :: after
        ∧ deedsOf before f = [] ∧ deedsOf after f = deedsOf log f := by
      obtain ⟨y, ys, hfilter, rfl, hys⟩ := List.map_eq_cons_iff.1 hfirst
      obtain ⟨before, after, rfl, hnone, hy, rfl⟩ := List.filter_eq_cons_iff.1 hfilter
      obtain rfl : y.1 = f := by simpa using hy
      refine ⟨before, after, rfl, ?_, hys⟩
      simpa [deedsOf] using hnone
    refine (List.Perm.cons _ (ih fun g => ?_)).trans List.perm_middle.symm
    rw [deedsOf_append]
    by_cases hg : g = f
    · rw [hg, hbefore, hafter, List.nil_append]
    · have hsame := h g
      rw [deedsOf_append] at hsame
      simpa [deedsOf, Ne.symm hg] using hsame

end

/-- What became of a file whose task has come to an end or has crashed. -/
def FileOutcome.ofEnd (number : Nat) (f : ParsedFile) : Except String FileOutcome → FileOutcome
  | .ok o => o
  | .error message => .crashed number f message

namespace Crew

variable {s : Workshop} {places : Nat}

/-! ### Turns -/

/-- A step, with the file that it is about and what is done in it, if it is the turn of a task. -/
inductive Turn (s : Workshop) (places : Nat) :
    Crew × World → List (ParsedFile × Deed) → Crew × World → Prop
  | begin {before after : List (ParsedFile × Nat)} {f : ParsedFile} {number : Nat}
      {underway : List Underway} {ended : List Ended} {w : World}
      (free : underway.length < places) :
      Turn s places (⟨before ++ (f, number) :: after, underway, ended⟩, w) []
        (⟨before ++ after, underway ++ [⟨f, number, s.work f⟩], ended⟩, w)
  | act {waiting : List (ParsedFile × Nat)} {before after : List Underway} {f : ParsedFile}
      {number : Nat} {a : Action} {next : a.Answer → Task FileOutcome} {ended : List Ended}
      {w w' : World} {answer : a.Answer} (done : a.perform w = (.ok answer, w')) :
      Turn s places (⟨waiting, before ++ ⟨f, number, .act a next⟩ :: after, ended⟩, w)
        [(f, ⟨a, .ok answer⟩)] (⟨waiting, before ++ ⟨f, number, next answer⟩ :: after, ended⟩, w')
  | crash {waiting : List (ParsedFile × Nat)} {before after : List Underway} {f : ParsedFile}
      {number : Nat} {a : Action} {next : a.Answer → Task FileOutcome} {ended : List Ended}
      {w w' : World} {message : String} (crashed : a.perform w = (.error message, w')) :
      Turn s places (⟨waiting, before ++ ⟨f, number, .act a next⟩ :: after, ended⟩, w)
        [(f, ⟨a, .error message⟩)]
        (⟨waiting, before ++ after, ended ++ [⟨f, number, .crashed number f message⟩]⟩, w')
  | finish {waiting : List (ParsedFile × Nat)} {before after : List Underway} {f : ParsedFile}
      {number : Nat} {o : FileOutcome} {ended : List Ended} {w : World} :
      Turn s places (⟨waiting, before ++ ⟨f, number, .done o⟩ :: after, ended⟩, w) []
        (⟨waiting, before ++ after, ended ++ [⟨f, number, o⟩]⟩, w)
  | request {c : Crew} {w : World} (stop : Bool) :
      Turn s places (c, w) [] (c, { w with cancelled := stop })

theorem Turn.move {x y : Crew × World} {now : List (ParsedFile × Deed)}
    (h : Turn s places x now y) : Move s places x (now.map (·.2)) y := by
  cases h with
  | begin free => exact .begin free
  | act done => exact .act done
  | crash crashed => exact .crash crashed
  | finish => exact .finish
  | request stop => exact .request stop

theorem step_iff_turn {x y : Crew × World} :
    Step s places x y ↔ ∃ now, Turn s places x now y := by
  constructor
  · intro h
    cases h with
    | begin free => exact ⟨_, .begin free⟩
    | act done => exact ⟨_, .act done⟩
    | crash crashed => exact ⟨_, .crash crashed⟩
    | finish => exact ⟨_, .finish⟩
    | request stop => exact ⟨_, .request stop⟩
  · rintro ⟨now, h⟩
    exact step_iff_move.2 ⟨_, h.move⟩

/-- In a turn nothing is done, or a task that is under way does its next action. -/
theorem Turn.idle_or_acts {x y : Crew × World} {now : List (ParsedFile × Deed)}
    (h : Turn s places x now y) :
    now = [] ∧ y.2.tree = x.2.tree
      ∨ ∃ u ∈ x.1.underway, ∃ a next, u.rest = .act a next
        ∧ now = [(u.file, ⟨a, (a.perform x.2).1⟩)] ∧ y.2 = (a.perform x.2).2 := by
  cases h with
  | begin free => exact .inl ⟨rfl, rfl⟩
  | @act waiting before after f number a next ended w w' answer done =>
    exact .inr ⟨⟨f, number, .act a next⟩, by simp, a, next, rfl, by simp [done], by simp [done]⟩
  | @crash waiting before after f number a next ended w w' message crashed =>
    exact .inr ⟨⟨f, number, .act a next⟩, by simp, a, next, rfl, by simp [crashed],
      by simp [crashed]⟩
  | finish => exact .inl ⟨rfl, rfl⟩
  | request stop => exact .inl ⟨rfl, rfl⟩

/-- Steps, with all that is done in them and on which files. -/
inductive Journal (s : Workshop) (places : Nat) (x : Crew × World) :
    List (ParsedFile × Deed) → Crew × World → Prop
  | start : Journal s places x [] x
  | turn {past now : List (ParsedFile × Deed)} {y z : Crew × World}
      (before : Journal s places x past y) (turn : Turn s places y now z) :
      Journal s places x (past ++ now) z

section

variable {x y z : Crew × World} {log later : List (ParsedFile × Deed)}

/-- Without the files, a journal is a history. -/
theorem Journal.history (h : Journal s places x log y) :
    History s places x (log.map (·.2)) y := by
  induction h with
  | start => exact .start
  | turn _ turn ih =>
    rw [List.map_append]
    exact ih.move turn.move

/-- Every way to take turns has a journal. -/
theorem steps_iff_journal : Steps s places x y ↔ ∃ log, Journal s places x log y := by
  constructor
  · intro h
    induction h with
    | refl => exact ⟨[], .start⟩
    | tail _ step ih =>
      obtain ⟨past, before⟩ := ih
      obtain ⟨now, turn⟩ := step_iff_turn.1 step
      exact ⟨past ++ now, before.turn turn⟩
  · rintro ⟨log, h⟩
    exact steps_iff_history.2 ⟨_, h.history⟩

theorem Turn.journal {now : List (ParsedFile × Deed)} (h : Turn s places x now y) :
    Journal s places x now y := Journal.start.turn h

theorem Journal.trans (h : Journal s places x log y) (h' : Journal s places y later z) :
    Journal s places x (log ++ later) z := by
  induction h' with
  | start => rwa [List.append_nil]
  | turn _ turn ih =>
    rw [← List.append_assoc]
    exact ih.turn turn

theorem Journal.perm_jobs {files : List (ParsedFile × Nat)} {w : World}
    (h : Journal s places (.start files, w) log y) : y.1.jobs.Perm files := by
  have hperm := Crew.perm_jobs (steps_iff_journal.2 ⟨log, h⟩)
  rwa [jobs_start] at hperm

end

/-- What has ended when all has are the files of the crew. -/
theorem Journal.perm_ended {files : List (ParsedFile × Nat)} {w w' : World}
    {log : List (ParsedFile × Deed)} {ended : List Ended}
    (h : Journal s places (.start files, w) log (⟨[], [], ended⟩, w')) :
    (ended.map fun e => (e.file, e.number)).Perm files := by
  simpa [jobs] using h.perm_jobs

theorem mem_jobs_of_underway {c : Crew} {u : Underway} (hu : u ∈ c.underway) :
    (u.file, u.number) ∈ c.jobs :=
  List.mem_append_left _ (List.mem_append_right _ (List.mem_map_of_mem hu))

/-- Only the files of the crew are worked on. -/
theorem Journal.mem_files {x y : Crew × World} {log : List (ParsedFile × Deed)}
    (h : Journal s places x log y) : ∀ z ∈ log, z.1 ∈ x.1.jobs.map (·.1) := by
  induction h with
  | start => exact fun z hz => absurd hz List.not_mem_nil
  | turn before turn ih =>
    have hperm := (Crew.perm_jobs (steps_iff_journal.2 ⟨_, before⟩)).map (·.1)
    intro z hz
    rcases List.mem_append.1 hz with hz | hz
    · exact ih z hz
    rcases turn.idle_or_acts with ⟨rfl, -⟩ | ⟨u, hu, a, next, -, rfl, -⟩
    · cases hz
    · rw [List.mem_singleton.1 hz]
      exact hperm.mem_iff.1 (List.mem_map_of_mem (mem_jobs_of_underway hu))

/-! ### What is told about a file -/

theorem perm_jobs_underway (waiting : List (ParsedFile × Nat)) (before after : List Underway)
    (u : Underway) (ended : List Ended) :
    (jobs ⟨waiting, before ++ u :: after, ended⟩).Perm
      ((u.file, u.number) :: jobs ⟨waiting, before ++ after, ended⟩) := by
  simp only [jobs, List.map_append, List.map_cons]
  grind

/-- The journal tells of each file how its task has come to where it is: one that waits has done
nothing, one under way has come to what is left of it, and one that has ended has come to its
end. -/
structure Recounts (s : Workshop) (log : List (ParsedFile × Deed)) (c : Crew) : Prop where
  waiting : ∀ job ∈ c.waiting, deedsOf log job.1 = []
  underway : ∀ u ∈ c.underway, (s.work u.file).Leads (deedsOf log u.file) u.rest
  ended : ∀ e ∈ c.ended, ∃ r, (s.work e.file).Course (deedsOf log e.file) r
    ∧ e.outcome = .ofEnd e.number e.file r

section

variable {log : List (ParsedFile × Deed)} {waiting : List (ParsedFile × Nat)}
  {before after : List Underway} {u : Underway} {ended : List Ended}

/-- What a task does is not told of the other files. -/
theorem Recounts.others (h : Recounts s log ⟨waiting, before ++ u :: after, ended⟩)
    (hnodup : ((jobs ⟨waiting, before ++ u :: after, ended⟩).map (·.1)).Nodup) (d : Deed) :
    Recounts s (log ++ [(u.file, d)]) ⟨waiting, before ++ after, ended⟩ := by
  have hcons := (((perm_jobs_underway waiting before after u ended).map (·.1)).nodup_iff).1 hnodup
  rw [List.map_cons, List.nodup_cons] at hcons
  have hsame : ∀ job ∈ jobs ⟨waiting, before ++ after, ended⟩,
      deedsOf (log ++ [(u.file, d)]) job.1 = deedsOf log job.1 := by
    intro job hjob
    refine deedsOf_concat_of_ne ?_
    rintro heq
    exact hcons.1 (List.mem_map.2 ⟨job, hjob, heq⟩)
  refine ⟨?_, ?_, ?_⟩
  · intro job hjob
    rw [hsame job (by simp [jobs, hjob])]
    exact h.waiting job hjob
  · intro v hv
    rw [hsame (v.file, v.number) ?_]
    · exact h.underway v (by grind)
    · exact List.mem_append_left _ (List.mem_append_right _ (List.mem_map.2 ⟨v, hv, rfl⟩))
  · intro e he
    rw [hsame (e.file, e.number) ?_]
    · exact h.ended e he
    · exact List.mem_append_right _ (List.mem_map.2 ⟨e, he, rfl⟩)

/-- A task that goes on takes its place among the others. -/
theorem Recounts.goesOn {f : ParsedFile} {number : Nat} {rest : Task FileOutcome}
    (h : Recounts s log ⟨waiting, before ++ after, ended⟩)
    (hrest : (s.work f).Leads (deedsOf log f) rest) :
    Recounts s log ⟨waiting, before ++ ⟨f, number, rest⟩ :: after, ended⟩ := by
  refine ⟨h.waiting, ?_, h.ended⟩
  intro v hv
  rcases List.mem_append.1 hv with hv | hv
  · exact h.underway v (List.mem_append_left _ hv)
  rcases List.mem_cons.1 hv with rfl | hv
  · exact hrest
  · exact h.underway v (List.mem_append_right _ hv)

/-- A task that has come to an end takes its place among those that have. -/
theorem Recounts.endsIn {f : ParsedFile} {number : Nat} {r : Except String FileOutcome}
    (h : Recounts s log ⟨waiting, before ++ after, ended⟩)
    (hcourse : (s.work f).Course (deedsOf log f) r) :
    Recounts s log ⟨waiting, before ++ after, ended ++ [⟨f, number, .ofEnd number f r⟩]⟩ := by
  refine ⟨h.waiting, h.underway, ?_⟩
  intro e he
  rcases List.mem_append.1 he with he | he
  · exact h.ended e he
  · rw [List.mem_singleton.1 he]
    exact ⟨r, hcourse, rfl⟩

end

theorem Turn.recounts {x y : Crew × World} {log now : List (ParsedFile × Deed)}
    (hturn : Turn s places x now y) (h : Recounts s log x.1)
    (hnodup : (x.1.jobs.map (·.1)).Nodup) : Recounts s (log ++ now) y.1 := by
  cases hturn with
  | @begin before after f number underway ended w free =>
    rw [List.append_nil]
    refine ⟨fun job hjob => h.waiting job (by grind), ?_, h.ended⟩
    intro u hu
    rcases List.mem_append.1 hu with hu | hu
    · exact h.underway u hu
    · rw [List.mem_singleton.1 hu, h.waiting (f, number) (by simp)]
      exact .start
  | @act waiting before after f number a next ended w w' answer done =>
    refine (h.others hnodup _).goesOn ?_
    rw [deedsOf_concat_self]
    exact (h.underway ⟨f, number, .act a next⟩ (by simp)).trans (.act .start)
  | @crash waiting before after f number a next ended w w' message crashed =>
    refine (h.others hnodup _).endsIn (r := .error message) ?_
    rw [deedsOf_concat_self]
    exact (h.underway ⟨f, number, .act a next⟩ (by simp)).course
      (.crash (congrArg Prod.fst crashed))
  | @finish waiting before after f number o ended w =>
    rw [List.append_nil]
    refine Recounts.endsIn (r := .ok o) ⟨h.waiting, fun u hu => h.underway u (by grind), h.ended⟩ ?_
    have hcourse := (h.underway ⟨f, number, .done o⟩ (by simp)).course (.done o)
    rwa [List.append_nil] at hcourse
  | request stop =>
    rw [List.append_nil]
    exact h

/-- However the tasks take turns, the journal tells of each file what its own task has done. -/
theorem Journal.recounts {files : List (ParsedFile × Nat)} {w : World} {y : Crew × World}
    {log : List (ParsedFile × Deed)} (h : Journal s places (.start files, w) log y)
    (hnodup : (files.map (·.1)).Nodup) : Recounts s log y.1 := by
  induction h with
  | start =>
    exact ⟨fun _ _ => rfl, fun u hu => absurd hu List.not_mem_nil,
      fun e he => absurd he List.not_mem_nil⟩
  | turn before turn ih =>
    exact turn.recounts ih (((before.perm_jobs.map _).nodup_iff).2 hnodup)

end Crew

/-! ### Without interruption -/

/-- What is told of work that is done on files one after the other. -/
def Workshop.journal (s : Workshop) : List (ParsedFile × Nat) → World → List (ParsedFile × Deed)
  | [], _ => []
  | (f, number) :: rest, w =>
    ((s.work f).deeds w).map (f, ·) ++ s.journal rest (s.finish number f w).2

theorem Workshop.map_journal (s : Workshop) (files : List (ParsedFile × Nat)) (w : World) :
    (s.journal files w).map (·.2) = s.deeds files w := by
  induction files generalizing w with
  | nil => rfl
  | cons job files ih => simp [journal, deeds, ih, Function.comp_def]

namespace Crew

variable {s : Workshop} {places : Nat}

/-- A task that is alone is done without a break. -/
theorem journal_run (s : Workshop) (places : Nat) (waiting : List (ParsedFile × Nat))
    (f : ParsedFile) (number : Nat) (ended : List Ended) (t : Task FileOutcome) (w : World) :
    Journal s places (⟨waiting, [⟨f, number, t⟩], ended⟩, w) ((t.deeds w).map (f, ·))
      (⟨waiting, [], ended ++ [⟨f, number, match (t.run w).1 with
        | .ok o => o
        | .error message => .crashed number f message⟩]⟩, (t.run w).2) := by
  induction t generalizing w with
  | done o =>
    have hturn : Turn s places (⟨waiting, [⟨f, number, .done o⟩], ended⟩, w) []
        (⟨waiting, [], ended ++ [⟨f, number, o⟩]⟩, w) := @Turn.finish s places waiting [] [] ..
    exact hturn.journal
  | act a next ih =>
    simp only [Task.run, Task.deeds]
    cases h : a.perform w with
    | mk result w' =>
      cases result with
      | ok answer =>
        have hturn : Turn s places (⟨waiting, [⟨f, number, .act a next⟩], ended⟩, w)
            [(f, ⟨a, .ok answer⟩)] (⟨waiting, [⟨f, number, next answer⟩], ended⟩, w') :=
          @Turn.act s places waiting [] [] _ _ _ _ _ _ _ _ h
        exact hturn.journal.trans (ih answer w')
      | error message =>
        have hturn : Turn s places (⟨waiting, [⟨f, number, .act a next⟩], ended⟩, w)
            [(f, ⟨a, .error message⟩)]
            (⟨waiting, [], ended ++ [⟨f, number, .crashed number f message⟩]⟩, w') :=
          @Turn.crash s places waiting [] [] _ _ _ _ _ _ _ _ h
        exact hturn.journal

/-- Work that is done on one file after the other, in any order, is a way to take turns. -/
theorem journal_finishAll (hplaces : 0 < places) {waiting files : List (ParsedFile × Nat)}
    (hperm : waiting.Perm files) (done : List Ended) (w : World) :
    ∃ ended, Journal s places (⟨waiting, [], done⟩, w) (s.journal files w)
        (⟨[], [], done ++ ended⟩, (s.finishAll files w).2)
      ∧ ended.map (fun e => (e.file, e.number)) = files
      ∧ ended.map (·.outcome) = (s.finishAll files w).1 := by
  induction files generalizing waiting done w with
  | nil =>
    obtain rfl := hperm.eq_nil
    exact ⟨[], by rw [List.append_nil]; exact .start, rfl, rfl⟩
  | cons job files ih =>
    obtain ⟨f, number⟩ := job
    obtain ⟨before, after, rfl⟩ := List.append_of_mem (hperm.mem_iff.2 List.mem_cons_self)
    have hrest : (before ++ after).Perm files := (List.perm_middle.symm.trans hperm).cons_inv
    have hbegin : Turn s places (⟨before ++ (f, number) :: after, [], done⟩, w) []
        (⟨before ++ after, [⟨f, number, s.work f⟩], done⟩, w) :=
      @Turn.begin s places _ _ _ _ [] _ _ hplaces
    have hfirst : Journal s places (⟨before ++ after, [⟨f, number, s.work f⟩], done⟩, w)
        (((s.work f).deeds w).map (f, ·))
        (⟨before ++ after, [], done ++ [⟨f, number, (s.finish number f w).1⟩]⟩,
          (s.finish number f w).2) := by
      convert journal_run s places (before ++ after) f number done (s.work f) w using 3
      all_goals
        unfold Workshop.finish
        split <;> rename_i hrun <;> simp [hrun]
    obtain ⟨ended, hlater, hjobs, houtcomes⟩ := ih hrest
      (done ++ [⟨f, number, (s.finish number f w).1⟩]) (s.finish number f w).2
    have hall := hbegin.journal.trans (hfirst.trans hlater)
    rw [List.nil_append, List.append_assoc] at hall
    exact ⟨⟨f, number, (s.finish number f w).1⟩ :: ended, hall, by simp [hjobs],
      by simp [Workshop.finishAll, houtcomes]⟩

end Crew

namespace Project

/-- When no task is interrupted, the outcomes are those of the work done on one file after the
other. -/
theorem exists_journal_finishAll (p : Project) (s : Scan) (w : World)
    (h : 0 < p.config.parallelism) :
    ∃ ended, Crew.Journal p.workshop p.config.parallelism (.start (workList s), w)
        (p.workshop.journal (workList s) w)
        (⟨[], [], ended⟩, (p.workshop.finishAll (workList s) w).2)
      ∧ Crew.outcomes ⟨[], [], ended⟩ = (p.workshop.finishAll (workList s) w).1 := by
  obtain ⟨ended, hjournal, hjobs, houtcomes⟩ := Crew.journal_finishAll h (.refl (workList s)) [] w
  have hsorted : sortBy (fun a b : Ended => a.number < b.number) ended = ended := by
    refine sortBy_eq_self ?_
    have hnumbers := pairwise_workList s
    rw [← hjobs, List.pairwise_map] at hnumbers
    exact hnumbers.imp fun hlt => by simpa using Nat.le_of_lt hlt
  refine ⟨ended, hjournal, ?_⟩
  rw [Crew.outcomes, hsorted, houtcomes]

theorem exists_history_finishAll (p : Project) (s : Scan) (w : World)
    (h : 0 < p.config.parallelism) :
    ∃ ended, Crew.History p.workshop p.config.parallelism (.start (workList s), w)
        (p.workshop.deeds (workList s) w)
        (⟨[], [], ended⟩, (p.workshop.finishAll (workList s) w).2)
      ∧ Crew.outcomes ⟨[], [], ended⟩ = (p.workshop.finishAll (workList s) w).1 := by
  obtain ⟨ended, hjournal, houtcomes⟩ := p.exists_journal_finishAll s w h
  rw [← Workshop.map_journal]
  exact ⟨ended, hjournal.history, houtcomes⟩

/-! ### Runs -/

/-- What a run may come to, with its journal and with all that has ended in it. -/
inductive RunsThrough (p : Project) (w : World) :
    List (ParsedFile × Deed) → List Ended → Except RunError RunReport × World → Prop
  | unscanned {e : RunError} (scanned : p.scan w = .error e) : RunsThrough p w [] [] (.error e, w)
  | concluded {s : Scan} {log : List (ParsedFile × Deed)} {ended : List Ended} {w' : World}
      (scanned : p.scan w = .ok s)
      (worked : Crew.Journal p.workshop p.config.parallelism (.start (workList s), w) log
        (⟨[], [], ended⟩, w')) :
      RunsThrough p w log ended (p.conclude s (Crew.outcomes ⟨[], [], ended⟩) w')

/-- Every run has a journal. -/
theorem runsTo_iff_runsThrough {p : Project} {w : World}
    {x : Except RunError RunReport × World} :
    p.RunsTo w x ↔ ∃ log ended, p.RunsThrough w log ended x := by
  constructor
  · rintro (scanned | ⟨scanned, worked⟩)
    · exact ⟨[], [], .unscanned scanned⟩
    · obtain ⟨log, hjournal⟩ := Crew.steps_iff_journal.1 worked
      exact ⟨log, _, .concluded scanned hjournal⟩
  · rintro ⟨log, ended, (scanned | ⟨scanned, worked⟩)⟩
    · exact .unscanned scanned
    · exact .concluded scanned (Crew.steps_iff_journal.2 ⟨log, worked⟩)

/-- The run in which no task is interrupted is one of the runs. -/
theorem exists_runsThrough_run (p : Project) (w : World) (h : 0 < p.config.parallelism) :
    ∃ ended, p.RunsThrough w (match p.scan w with
      | .error _ => []
      | .ok s => p.workshop.journal (workList s) w) ended (p.run w) := by
  unfold run
  cases hscan : p.scan w with
  | error e => exact ⟨[], .unscanned hscan⟩
  | ok s =>
    obtain ⟨ended, hjournal, houtcomes⟩ := p.exists_journal_finishAll s w h
    have hruns := RunsThrough.concluded hscan hjournal
    rw [houtcomes] at hruns
    exact ⟨ended, hruns⟩

theorem runsTo_run (p : Project) (w : World) (h : 0 < p.config.parallelism) :
    p.RunsTo w (p.run w) := by
  obtain ⟨ended, hruns⟩ := p.exists_runsThrough_run w h
  exact runsTo_iff_runsThrough.2 ⟨_, ended, hruns⟩

end Project

end Marginalia
