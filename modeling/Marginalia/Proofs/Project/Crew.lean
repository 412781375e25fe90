import Marginalia.Project.Crew
import Marginalia.Proofs.Ordered
import Marginalia.Proofs.Task

/-!
What holds of a crew in whatever order its tasks take their turns. No file is lost and none is
worked on twice, and every file comes to an end of its own task, or to a crash of it. So the
outcomes, in the order of the numbers, are outcomes of the files in the order in which they were
given, and the report and the manifest are made of them.
-/

namespace Marginalia

namespace Crew

variable {s : Workshop} {places : Nat}

/-! ### No file is lost -/

/-- The files and their numbers, whatever has become of them. -/
def jobs (c : Crew) : List (ParsedFile × Nat) :=
  c.waiting ++ (c.underway.map fun u => (u.file, u.number))
    ++ c.ended.map fun e => (e.file, e.number)

theorem jobs_start (files : List (ParsedFile × Nat)) : (start files).jobs = files := by
  simp [jobs, start]

/-- A step passes a job on, or leaves all where they are. -/
theorem Step.perm_jobs {x y : Crew × World} (h : Step s places x y) :
    y.1.jobs.Perm x.1.jobs := by
  cases h with
  | begin free => simp only [jobs, List.map_append, List.map_cons, List.map_nil]; grind
  | act done => simp [jobs]
  | crash crashed => simp only [jobs, List.map_append, List.map_cons, List.map_nil]; grind
  | finish => simp only [jobs, List.map_append, List.map_cons, List.map_nil]; grind
  | request stop => exact .refl _

theorem perm_jobs {x y : Crew × World} (h : Steps s places x y) : y.1.jobs.Perm x.1.jobs := by
  induction h with
  | refl => exact .refl _
  | tail _ step ih => exact step.perm_jobs.trans ih

/-! ### Every file comes to an end of its task -/

/-- Every task under way can only end as it should for its file, and every other one has. -/
structure EndsIn (P : ParsedFile → FileOutcome → Prop) (c : Crew) : Prop where
  underway : ∀ u ∈ c.underway, u.rest.EndsIn (P u.file)
  ended : ∀ e ∈ c.ended, P e.file e.outcome

theorem Step.endsIn {P : ParsedFile → FileOutcome → Prop} {x y : Crew × World}
    (hwork : ∀ job ∈ x.1.jobs, (s.work job.1).EndsIn (P job.1))
    (hcrash : ∀ job ∈ x.1.jobs, ∀ message, P job.1 (.crashed job.2 job.1 message))
    (h : Step s places x y) (hx : x.1.EndsIn P) : y.1.EndsIn P := by
  obtain ⟨hunderway, hended⟩ := hx
  cases h with
  | @begin _ _ f number _ _ _ free =>
    refine ⟨fun u hu => ?_, hended⟩
    rcases List.mem_append.1 hu with hu | hu
    · exact hunderway u hu
    · rw [List.mem_singleton.1 hu]
      exact hwork (f, number) (by simp [jobs])
  | @act _ _ _ f number a next _ _ _ answer done =>
    refine ⟨fun u hu => ?_, hended⟩
    have hnext : (Task.act a next).EndsIn (P f) := hunderway ⟨f, number, _⟩ (by simp)
    rcases List.mem_append.1 hu with hu | hu
    · exact hunderway u (by simp [hu])
    rcases List.mem_cons.1 hu with rfl | hu
    · exact hnext answer
    · exact hunderway u (by simp [hu])
  | @crash _ _ _ f number _ _ _ _ _ message crashed =>
    refine ⟨fun u hu => hunderway u (by grind), fun e he => ?_⟩
    rcases List.mem_append.1 he with he | he
    · exact hended e he
    · rw [List.mem_singleton.1 he]
      exact hcrash (f, number) (by simp [jobs]) message
  | @finish _ _ _ f number o _ _ =>
    refine ⟨fun u hu => hunderway u (by grind), fun e he => ?_⟩
    have hdone : (Task.done o).EndsIn (P f) := hunderway ⟨f, number, _⟩ (by simp)
    rcases List.mem_append.1 he with he | he
    · exact hended e he
    · rw [List.mem_singleton.1 he]
      exact hdone
  | request stop => exact ⟨hunderway, hended⟩

section

variable {P : ParsedFile → FileOutcome → Prop} {files : List (ParsedFile × Nat)}

theorem endsIn (hwork : ∀ job ∈ files, (s.work job.1).EndsIn (P job.1))
    (hcrash : ∀ job ∈ files, ∀ message, P job.1 (.crashed job.2 job.1 message))
    {w : World} {y : Crew × World} (h : Steps s places (.start files, w) y) : y.1.EndsIn P := by
  induction h with
  | refl => exact ⟨fun u hu => absurd hu List.not_mem_nil, fun e he => absurd he List.not_mem_nil⟩
  | tail hsteps step ih =>
    have hjobs := perm_jobs hsteps
    rw [jobs_start] at hjobs
    exact step.endsIn (fun job hjob => hwork job (hjobs.mem_iff.1 hjob))
      (fun job hjob => hcrash job (hjobs.mem_iff.1 hjob)) ih

/-- When all tasks have ended, there is one outcome for each file, in the order of the files. -/
theorem forall₂_of_ended (hfiles : files.Pairwise fun a b => a.2 < b.2) {w w' : World}
    {ended : List Ended} (h : Steps s places (.start files, w) (⟨[], [], ended⟩, w'))
    (hended : ∀ e ∈ ended, P e.file e.outcome) :
    List.Forall₂ (fun job o => P job.1 o) files (outcomes ⟨[], [], ended⟩) := by
  let sorted := sortBy (fun a b : Ended => a.number < b.number) ended
  have hperm : (ended.map fun e => (e.file, e.number)).Perm files := by
    simpa [jobs, start] using perm_jobs h
  have hsorted : (sorted.map fun e => (e.file, e.number)) = files :=
    (map_sortBy (fun e : Ended => (e.file, e.number)) ended).trans
      (sortBy_eq_of_perm (isKeyOrder_nat (·.2)) hperm (by simpa using hfiles))
  rw [← hsorted]
  refine List.forall₂_map_left_iff.2 (List.forall₂_map_right_iff.2 (List.forall₂_same.2 ?_))
  intro e he
  exact hended e ((sortBy_perm _ _).mem_iff.1 he)

/-- However the tasks take turns, the outcome of a file is one that its task can end in. -/
theorem forall₂_outcomes (hwork : ∀ job ∈ files, (s.work job.1).EndsIn (P job.1))
    (hcrash : ∀ job ∈ files, ∀ message, P job.1 (.crashed job.2 job.1 message))
    (hfiles : files.Pairwise fun a b => a.2 < b.2) {w w' : World} {ended : List Ended}
    (h : Steps s places (.start files, w) (⟨[], [], ended⟩, w')) :
    List.Forall₂ (fun job o => P job.1 o) files (outcomes ⟨[], [], ended⟩) :=
  forall₂_of_ended hfiles h (endsIn hwork hcrash h).ended

end

end Crew

/-! ### Work lists -/

section

variable {s : Scan}

theorem mem_of_mem_workList {job : ParsedFile × Nat} (h : job ∈ Project.workList s) :
    job.1 ∈ s.files ∧ job.1.units ≠ [] := by
  obtain ⟨hmem, hunits⟩ := List.mem_filter.1 h
  exact ⟨List.fst_mem_of_mem_zipIdx hmem, by simpa using hunits⟩

theorem exists_mem_workList {f : ParsedFile} (hf : f ∈ s.files) (hunits : f.units ≠ []) :
    ∃ number, (f, number) ∈ Project.workList s := by
  obtain ⟨i, hi, rfl⟩ := List.mem_iff_getElem.1 hf
  exact ⟨i, List.mem_filter.2
    ⟨List.mk_mem_zipIdx_iff_getElem?.2 (List.getElem?_eq_getElem hi), by simpa using hunits⟩⟩

theorem sublist_workList (s : Scan) : ((Project.workList s).map (·.1)).Sublist s.files := by
  have hsublist := (List.filter_sublist (l := s.files.zipIdx)
    (p := fun job => !job.1.units.isEmpty)).map (·.1)
  rwa [List.zipIdx_map_fst] at hsublist

theorem nodup_workList (h : s.files.Nodup) : ((Project.workList s).map (·.1)).Nodup :=
  h.sublist (sublist_workList s)

end

namespace Project

/-- The files of the work list have ascending numbers. -/
theorem pairwise_workList (s : Scan) : (workList s).Pairwise fun a b => a.2 < b.2 := by
  refine List.Pairwise.filter _ ?_
  have h := List.pairwise_lt_range' (s := 0) (n := s.files.length)
  rw [← List.zipIdx_map_snd, List.pairwise_map] at h
  exact h

/-! ### What a run comes to -/

theorem tree_conclude (p : Project) (s : Scan) (outcomes : List FileOutcome) (w : World) :
    (p.conclude s outcomes w).2.tree = (writeManifest w.tree p.config.manifestPath
      (outcomes.flatMap fun o => o.units.map ManifestRecord.ofUnit)).2 := by
  cases hwrite : writeManifest w.tree p.config.manifestPath
    (outcomes.flatMap fun o => o.units.map ManifestRecord.ofUnit)
  simp only [conclude, hwrite]

/-- Whether there is a report hangs on the manifest alone. -/
theorem report_conclude (p : Project) (s : Scan) (outcomes : List FileOutcome) (w : World) :
    (p.conclude s outcomes w).1 = (writeManifest w.tree p.config.manifestPath
      (outcomes.flatMap fun o => o.units.map ManifestRecord.ofUnit)).1.map fun () =>
        { outcomes.foldl addOutcome { s.report with callEdges := s.graph.stats.edges } with
          quotaUsed := w.budget.used } := by
  cases hwrite : writeManifest w.tree p.config.manifestPath
    (outcomes.flatMap fun o => o.units.map ManifestRecord.ofUnit)
  simp only [conclude, hwrite]

theorem report_of_conclude {p : Project} {s : Scan} {outcomes : List FileOutcome} {w : World}
    {report : RunReport} (h : (p.conclude s outcomes w).1 = .ok report) :
    report = { outcomes.foldl addOutcome { s.report with callEdges := s.graph.stats.edges } with
      quotaUsed := w.budget.used } := by
  rw [report_conclude] at h
  cases hwrite : (writeManifest w.tree p.config.manifestPath
      (outcomes.flatMap fun o => o.units.map ManifestRecord.ofUnit)).1 with
  | error e =>
    rw [hwrite] at h
    cases h
  | ok done =>
    rw [hwrite] at h
    exact (Except.ok.inj h).symm

/-- What a run with a report comes to: the scan, the work on its files and the conclusion. -/
theorem RunsTo.exists_concluded {p : Project} {w w' : World} {report : RunReport}
    (h : p.RunsTo w (.ok report, w')) {s : Scan} (hscan : p.scan w = .ok s) :
    ∃ ended w₁, Crew.Steps p.workshop p.config.parallelism (.start (workList s), w)
        (⟨[], [], ended⟩, w₁)
      ∧ w' = (p.conclude s (Crew.outcomes ⟨[], [], ended⟩) w₁).2
      ∧ report = { (Crew.outcomes ⟨[], [], ended⟩).foldl addOutcome
          { s.report with callEdges := s.graph.stats.edges } with
            quotaUsed := w₁.budget.used } := by
  generalize hx : (Except.ok report, w') = x at h
  cases h with
  | unscanned scanned => cases hscan.symm.trans scanned
  | @concluded s' ended w₁ scanned worked =>
    obtain rfl := Except.ok.inj (hscan.symm.trans scanned)
    exact ⟨ended, w₁, worked, congrArg Prod.snd hx, report_of_conclude (congrArg Prod.fst hx).symm⟩

end Project

end Marginalia
