import Marginalia.Proofs.Project.Answers
import Marginalia.Proofs.Project.Clearance
import Marginalia.Proofs.Project.Completion
import Marginalia.Proofs.Project.Settling
import Marginalia.Proofs.RunManifest

/-!
Runs that differ in nothing but whose turn it was when. If nobody asks for the run to stop, the
services go by the unit alone and the budget is steady, then the task of a file takes the same
course in all of them. So all of them come to the same report and manifest, and leave the same files
behind, but for the order of the lines in the index.
-/

namespace Marginalia

namespace Project

variable {p : Project} {s : Scan} {w : World}

/-- A run comes to this, and no task finds that the run is asked to stop. -/
def RunsUndisturbed (p : Project) (w : World) (x : Except RunError RunReport × World) : Prop :=
  ∃ log ended, p.RunsThrough w log ended x ∧ ∀ z ∈ log, z.2.isStop = false

/-- The project when so many files may be worked on at a time. -/
def withPlaces (p : Project) (places : Nat) : Project :=
  { p with config := { p.config with parallelism := places } }

theorem scan_withPlaces (p : Project) (places : Nat) (w : World) :
    (p.withPlaces places).scan w = p.scan w := rfl

theorem conclude_withPlaces (p : Project) (places : Nat) (s : Scan) (outcomes : List FileOutcome)
    (w : World) : (p.withPlaces places).conclude s outcomes w = p.conclude s outcomes w := by
  have hpath : (p.withPlaces places).config.manifestPath = p.config.manifestPath := rfl
  simp only [conclude, hpath]

/-! ### Two ways to take turns -/

section

variable {places places' : Nat} {log log' : List (ParsedFile × Deed)} {ended ended' : List Ended}
  {w₁ w₂ : World}

/-- By what the journal tells, this becomes of the file. -/
def ComesTo (p : Project) (s : Scan) (log : List (ParsedFile × Deed)) (f : ParsedFile)
    (o : FileOutcome) : Prop :=
  ∃ number r, (f, number) ∈ workList s ∧ (p.workshop.work f).Course (deedsOf log f) r
    ∧ o = .ofEnd number f r

theorem ComesTo.unique (hnodup : ((workList s).map (·.1)).Nodup) {f : ParsedFile}
    {o o' : FileOutcome} (h : p.ComesTo s log f o) (h' : p.ComesTo s log f o') : o = o' := by
  obtain ⟨number, r, hjob, hcourse, rfl⟩ := h
  obtain ⟨number', r', hjob', hcourse', rfl⟩ := h'
  obtain rfl := hcourse.end_unique hcourse'
  obtain rfl := congrArg Prod.snd (List.inj_on_of_nodup_map hnodup hjob hjob' rfl)
  rfl

theorem comesTo_of_mem_ended (hnodup : ((workList s).map (·.1)).Nodup)
    (h : Crew.Journal p.workshop places (.start (workList s), w) log (⟨[], [], ended⟩, w₁))
    {e : Ended} (he : e ∈ ended) : p.ComesTo s log e.file e.outcome := by
  obtain ⟨r, hcourse, houtcome⟩ := (h.recounts hnodup).ended e he
  exact ⟨e.number, r, h.perm_ended.mem_iff.1 (List.mem_map_of_mem he), hcourse, houtcome⟩

/-- When all tasks have ended, the journal tells what becomes of each file. -/
theorem exists_comesTo (hnodup : ((workList s).map (·.1)).Nodup)
    (h : Crew.Journal p.workshop places (.start (workList s), w) log (⟨[], [], ended⟩, w₁))
    {f : ParsedFile} (hf : f ∈ (workList s).map (·.1)) : ∃ o, p.ComesTo s log f o := by
  obtain ⟨job, hjob, rfl⟩ := List.mem_map.1 hf
  obtain ⟨e, he, rfl⟩ := List.mem_map.1 (h.perm_ended.mem_iff.2 hjob)
  exact ⟨e.outcome, comesTo_of_mem_ended hnodup h he⟩

variable (hroom : p.HasRoom s w.tree) (hscan : p.scan w = .ok s) (hedits : p.workshop.EditsNothing)

include hroom hscan hedits

/-- When all tasks have ended, each file is as it was or has been moved to its place. -/
theorem HasRoom.settles
    (h : Crew.Journal p.workshop places (.start (workList s), w) log (⟨[], [], ended⟩, w₁)) :
    (p.outset s w.tree).Settles (fun f => .after (deedsOf log f)) (unitsOffered log) w₁.tree := by
  have hplaces := hroom.workplaces hscan
  have hwork (f : ParsedFile) (_ : (p.outset s w.tree).worked f) := advances_work hedits w.tree
    (fun f => f ∈ s.files ∧ f.units ≠ []) f
  obtain ⟨htracks, -, hfits⟩ := hroom.tracks hscan hedits h
  refine htracks.settles hplaces (fun f hf => ?_) fun q n c hn hq => ?_
  · obtain ⟨number, hjob⟩ := exists_mem_workList hf.1 hf.2
    obtain ⟨e, he, hsame⟩ := List.mem_map.1 (h.perm_ended.mem_iff.2 hjob)
    obtain rfl : e.file = f := congrArg Prod.fst hsame
    exact (hfits e he).settled
  · exact h.at?_index hplaces hedits.ingest hwork hroom.tracks_start
      (fun job hjob => mem_of_mem_workList hjob) (hroom.nodup_workList hscan) hn hq hq

variable (hunit : p.workshop.AnswersByUnit)
  (hbudget : p.enricher.hasModel = true → w.budget.IsSteady)
  (h : Crew.Journal p.workshop places (.start (workList s), w) log (⟨[], [], ended⟩, w₁))
  (hstop : ∀ z ∈ log, z.2.isStop = false)
  (h' : Crew.Journal p.workshop places' (.start (workList s), w) log' (⟨[], [], ended'⟩, w₂))
  (hstop' : ∀ z ∈ log', z.2.isStop = false)

include hunit hbudget h hstop h' hstop'

/-- The same is done on each file. -/
theorem HasRoom.deedsOf_eq (f : ParsedFile) : deedsOf log f = deedsOf log' f := by
  have hnodup := hroom.nodup_workList hscan
  by_cases hf : f ∈ (workList s).map (·.1)
  · obtain ⟨-, -, r, -, hcourse, -⟩ := exists_comesTo hnodup h hf
    obtain ⟨-, -, r', -, hcourse', -⟩ := exists_comesTo hnodup h' hf
    obtain ⟨-, hlog, -⟩ := hroom.tracks hscan hedits h
    obtain ⟨-, hlog', -⟩ := hroom.tracks hscan hedits h'
    refine (hcourse.unique hcourse' fun d hd d' hd' haction => ?_).1
    cases hfiles : d.action.isOnFiles with
    | true =>
      exact (hlog _ (mem_deedsOf.1 hd)).eq (hlog' _ (mem_deedsOf.1 hd')) hfiles haction
    | false =>
      exact Crew.Journal.answers_alike hunit hbudget rfl rfl h h' hstop hstop' (mem_deedsOf.1 hd)
        (mem_deedsOf.1 hd') haction (hcourse.only (p.workshop.only_work f) d hd) hfiles
  · have hnone {places : Nat} {log : List (ParsedFile × Deed)} {y : Crew × World}
        (h : Crew.Journal p.workshop places (.start (workList s), w) log y) :
        deedsOf log f = [] := by
      refine List.eq_nil_iff_forall_not_mem.2 fun d hd => hf ?_
      have hmem := h.mem_files _ (mem_deedsOf.1 hd)
      rwa [Crew.jobs_start] at hmem
    rw [hnone h, hnone h']

/-- The same becomes of each file. -/
theorem HasRoom.outcomes_eq :
    Crew.outcomes ⟨[], [], ended⟩ = Crew.outcomes ⟨[], [], ended'⟩ := by
  have hnodup := hroom.nodup_workList hscan
  have hsame := hroom.deedsOf_eq hscan hedits hunit hbudget h hstop h' hstop'
  have hcomesTo' : ∀ e ∈ ended', p.ComesTo s log e.file e.outcome := by
    intro e he
    obtain ⟨number, r, hjob, hcourse, houtcome⟩ := comesTo_of_mem_ended hnodup h' he
    exact ⟨number, r, hjob, hsame e.file ▸ hcourse, houtcome⟩
  have hunique : Relator.RightUnique fun (job : ParsedFile × Nat) o => p.ComesTo s log job.1 o :=
    fun _ _ _ ho ho' => ho.unique hnodup ho'
  exact List.right_unique_forall₂' hunique
    (Crew.forall₂_of_ended (pairwise_workList s) (Crew.steps_iff_journal.2 ⟨_, h⟩)
      fun e he => comesTo_of_mem_ended hnodup h he)
    (Crew.forall₂_of_ended (pairwise_workList s) (Crew.steps_iff_journal.2 ⟨_, h'⟩) hcomesTo')

/-- The same is taken from the budget. -/
theorem HasRoom.budget_eq : w₁.budget = w₂.budget := by
  have hperm := perm_of_deedsOf_eq (hroom.deedsOf_eq hscan hedits hunit hbudget h hstop h' hstop')
  rw [h.history.budget, h'.history.budget, (hperm.map _).countP_eq]

/-- The files hold the same, but for the order of the lines in the index. -/
theorem HasRoom.resembles : w₁.tree.Resembles p.index.MayDiffer w₂.tree := by
  have hsame := hroom.deedsOf_eq hscan hedits hunit hbudget h hstop h' hstop'
  have hsettles' := hroom.settles hscan hedits h'
  simp only [← hsame] at hsettles'
  exact (hroom.settles hscan hedits h).resembles hsettles'
    ((perm_of_deedsOf_eq hsame).filterMap _)

end

/-! ### Runs -/

/-- A run that comes to this has written a manifest of the records, or has tried to. -/
def WritesManifest (p : Project) (records : List ManifestRecord)
    (x : Except RunError RunReport × World) : Prop :=
  ∃ t, writeManifest t p.config.manifestPath records = (x.1.map fun _ => (), x.2.tree)

theorem writesManifest_conclude (p : Project) (s : Scan) (outcomes : List FileOutcome) (w : World) :
    p.WritesManifest (outcomes.flatMap fun o => o.units.map ManifestRecord.ofUnit)
      (p.conclude s outcomes w) := by
  refine ⟨w.tree, ?_⟩
  rw [report_conclude, tree_conclude]
  cases hwrite : (writeManifest w.tree p.config.manifestPath
    (outcomes.flatMap fun o => o.units.map ManifestRecord.ofUnit)) with
  | mk written tree => cases written <;> rfl

/-- What a run comes to hangs on the outcomes and on the budget, and on trees up to resemblance. -/
theorem conclude_of_resembles {alike : Nat → Content → Content → Prop}
    (halike : ∀ n c, alike n c c) {w₁ w₂ : World} (hbudget : w₁.budget = w₂.budget)
    (h : w₁.tree.Resembles alike w₂.tree) (outcomes : List FileOutcome) :
    (p.conclude s outcomes w₁).1 = (p.conclude s outcomes w₂).1
      ∧ (p.conclude s outcomes w₁).2.tree.Resembles alike (p.conclude s outcomes w₂).2.tree := by
  obtain ⟨hwritten, htree⟩ := h.writeManifest halike p.config.manifestPath
    (outcomes.flatMap fun o => o.units.map ManifestRecord.ofUnit)
  rw [report_conclude, report_conclude, tree_conclude, tree_conclude, hwritten, hbudget]
  exact ⟨rfl, htree⟩

/-- Two runs have come to the same report, or have failed alike, they have written the same
manifest, and the files that they leave behind are the same but for the order of the lines in the
index. -/
structure SameButIndexOrder (p : Project) (w : World) (x y : Except RunError RunReport × World) :
    Prop where
  report : x.1 = y.1
  tree : x.2.tree.Resembles p.index.MayDiffer y.2.tree
  manifest : ∀ s, p.scan w = .ok s →
    ∃ records, p.WritesManifest records x ∧ p.WritesManifest records y

/-- The run in which no task is interrupted and the last file comes first. -/
def runBackwards (p : Project) (w : World) : Except RunError RunReport × World :=
  match p.scan w with
  | .error e => (.error e, w)
  | .ok s =>
    let (outcomes, w) := p.workshop.finishAll (workList s).reverse w
    p.conclude s outcomes.reverse w

theorem exists_runsThrough_runBackwards (p : Project) (w : World) {places : Nat}
    (h : 0 < places) :
    ∃ ended, (p.withPlaces places).RunsThrough w (match p.scan w with
      | .error _ => []
      | .ok s => p.workshop.journal (workList s).reverse w) ended (p.runBackwards w) := by
  unfold runBackwards
  cases hscan : p.scan w with
  | error e => exact ⟨[], .unscanned ((p.scan_withPlaces places w).trans hscan)⟩
  | ok s =>
    obtain ⟨ended, hjournal, hjobs, houtcomes⟩ := Crew.journal_finishAll (s := p.workshop) h
      (List.reverse_perm (workList s)).symm [] w
    -- the outcomes come in the order of the numbers, which is not the one in which the tasks ended
    have hsorted : sortBy (fun a b : Ended => a.number < b.number) ended = ended.reverse := by
      refine sortBy_eq_of_perm (isKeyOrder_nat (·.number)) (List.reverse_perm ended).symm ?_
      have hnumbers := pairwise_workList s
      rw [← List.reverse_reverse (workList s), ← hjobs, ← List.map_reverse,
        List.pairwise_map] at hnumbers
      simpa using hnumbers
    have hruns := RunsThrough.concluded (p := p.withPlaces places)
      ((p.scan_withPlaces places w).trans hscan) hjournal
    rw [conclude_withPlaces, List.nil_append, Crew.outcomes, hsorted, List.map_reverse,
      houtcomes] at hruns
    exact ⟨ended, hruns⟩

/-- Without interruption nobody asks the run to stop, whether the first file comes first or the last
one, and a check of what the two runs come to holds. -/
def checkBothWays (p : Project) (w : World)
    (check : Scan → Except RunError RunReport × World → Except RunError RunReport × World → Bool) :
    Bool :=
  match p.scan w with
  | .ok s => (p.workshop.journal (workList s) w).all (!·.2.isStop)
    && (p.workshop.journal (workList s).reverse w).all (!·.2.isStop)
    && check s (p.run w) (p.runBackwards w)
  | .error _ => false

theorem exists_of_checkBothWays {p : Project} {w : World}
    {check : Scan → Except RunError RunReport × World → Except RunError RunReport × World → Bool}
    (h : p.checkBothWays w check = true) (hplaces : 0 < p.config.parallelism) :
    ∃ s, p.scan w = .ok s ∧ p.RunsUndisturbed w (p.run w)
      ∧ (∀ places, 0 < places → (p.withPlaces places).RunsUndisturbed w (p.runBackwards w))
      ∧ check s (p.run w) (p.runBackwards w) = true := by
  unfold checkBothWays at h
  cases hscan : p.scan w with
  | error e =>
    rw [hscan] at h
    cases h
  | ok s =>
    simp only [hscan, Bool.and_eq_true] at h
    obtain ⟨⟨hstop, hstop'⟩, hcheck⟩ := h
    have hquiet {log : List (ParsedFile × Deed)} (h : log.all (!·.2.isStop) = true) :
        ∀ z ∈ log, z.2.isStop = false := fun z hz => by simpa using List.all_eq_true.1 h z hz
    obtain ⟨ended, hruns⟩ := p.exists_runsThrough_run w hplaces
    rw [hscan] at hruns
    refine ⟨s, rfl, ⟨_, ended, hruns, hquiet hstop⟩, fun places h => ?_, hcheck⟩
    obtain ⟨ended, hruns⟩ := p.exists_runsThrough_runBackwards w h
    rw [hscan] at hruns
    exact ⟨_, ended, hruns, hquiet hstop'⟩

/-- A project whose services find everything fit for reuse, with an index and without a limit. -/
def sharedProject : Project where
  config := { root := "/p", quota := none, manifest := some "m.json" }
  enricher := ⟨some fun _ _ => .of (.answer ⟨true, "", .half, .model⟩),
    some fun _ _ => .of (.answer default)⟩
  index := .file 0

/-- The world of the index and of two sources with a unit each. -/
def sharedWorld : World := sharedProject.startWorld {
  entries := [(["p"], .directory), (["p", "i.jsonl"], .file 0 (.text "")),
    (["p", "a.py"], .file 1 (.text "def f():
  pass
")),
    (["p", "b.py"], .file 2 (.text "def g():
  pass
"))]
  nextSerial := 3
  workingDirectory := [] }

/-- The world of two sources with stray ends, where a link to the second one stands in the way of
the temporary file of the first one. -/
def linkedWorld : World := plainProject.startWorld {
  entries := [(["p"], .directory), (["p", "a.py"], .file 0 (.text strayEndText)),
    (["p", "b.py"], .file 1 (.text "# --- END MADL ---
def g():
  pass
")),
    (["p", ".a.py.madl.tmp"], .link "b.py")]
  nextSerial := 2
  workingDirectory := [] }

end Project

end Marginalia
