import Marginalia.Proofs.Project.Journal
import Marginalia.Proofs.Project.Scan

/-!
The records of a run. Whatever the services do and whenever the run is asked to stop, the work on a
file keeps its units, adds to them only what is found out, and counts what it adds. So the manifest
has one record for each unit of the scan, in the order of the scan, and the numbers of the report
can be read off the records.
-/

namespace Marginalia

/-- One unit is another one with what a run has found out about it. -/
def CodeUnit.HasFindings (u v : CodeUnit) : Prop :=
  ∃ verdict annotation indexId,
    v = { u with verdict := verdict, annotation := annotation, indexId := indexId }

theorem CodeUnit.hasFindings_refl (u : CodeUnit) : u.HasFindings u := ⟨_, _, _, rfl⟩

theorem CodeUnit.HasFindings.trans {u v w : CodeUnit} (h : u.HasFindings v) (h' : v.HasFindings w) :
    u.HasFindings w := by
  obtain ⟨_, _, _, rfl⟩ := h
  obtain ⟨_, _, _, rfl⟩ := h'
  exact ⟨_, _, _, rfl⟩

/-! ### The work on a file -/

/-- What became of a file accounts for it: its units are there with what was found out about them,
those that the index took in are counted, and each verdict is reported with its source. -/
structure FileOutcome.Accounts (o : FileOutcome) (f : ParsedFile) : Prop where
  units : List.Forall₂ CodeUnit.HasFindings f.units o.units
  indexed : o.indexed = o.units.countP (·.indexId.isSome)
  judged : o.reports.map (·.judgedBy) = o.units.filterMap fun u => u.verdict.map (·.source)

/-- The units as they were account for a file on which no work was done, or none that lasts. -/
theorem FileOutcome.accounts_of_units {o : FileOutcome} {f : ParsedFile}
    (hf : ∀ u ∈ f.units, u.IsFresh) (hunits : o.units = f.units) (hindexed : o.indexed = 0)
    (hreports : o.reports = []) : o.Accounts f where
  units := hunits ▸ List.forall₂_same.2 fun u _ => u.hasFindings_refl
  indexed := by
    rw [hindexed, hunits, eq_comm, List.countP_eq_zero]
    exact fun u hu => by simp [(hf u hu).indexId]
  judged := by
    rw [hreports, hunits, eq_comm, List.map_nil, List.filterMap_eq_nil_iff]
    exact fun u hu => by simp [(hf u hu).verdict]

/-- A unit that has been judged, with the report on it. -/
structure IsEnriched (u : CodeUnit) (r : CodeUnit × EnrichReport) : Prop where
  unit : u.HasFindings r.1
  indexId : r.1.indexId = u.indexId
  judged : r.1.verdict.map (·.source) = some r.2.judgedBy

theorem endsIn_enrich (e : Enricher) (u : CodeUnit) : (e.enrich u).EndsIn (IsEnriched u) := by
  refine (Task.endsIn_true (e.obtainVerdict u)).bind fun v _ => ?_
  dsimp only
  split
  · refine (Task.endsIn_true (e.obtainAnnotation _)).bind fun a _ => ?_
    exact Task.endsIn_pure ⟨⟨_, _, _, rfl⟩, rfl, rfl⟩
  · exact Task.endsIn_pure ⟨⟨_, _, _, rfl⟩, rfl, rfl⟩

/-- A unit that has been offered to the index, which took it in if it has an identifier there. -/
structure IsOffered (u : CodeUnit) (o : OfferedUnit) : Prop where
  unit : u.HasFindings o.unit
  verdict : o.unit.verdict = u.verdict
  taken : o.unit.indexId.isSome = o.taken

theorem endsIn_offer (s : Workshop) (relative : String) {u : CodeUnit} (hu : u.indexId = none) :
    (s.offer relative u).EndsIn (IsOffered u) := by
  have hleft : u.indexId.isSome = false := by rw [hu]; rfl
  unfold Workshop.offer
  split
  · refine (Task.endsIn_true (Task.ingest s.index u)).bind fun answer _ => ?_
    cases answer with
    | ok id => exact Task.endsIn_pure ⟨⟨_, _, _, rfl⟩, rfl, rfl⟩
    | error e => exact Task.endsIn_pure ⟨u.hasFindings_refl, rfl, hleft⟩
  · exact Task.endsIn_pure ⟨u.hasFindings_refl, rfl, hleft⟩

section

variable {units : List CodeUnit} {enriched : List (CodeUnit × EnrichReport)}
  {offered : List OfferedUnit}

/-- Enriching hands nothing to the index. -/
theorem indexId_enriched (h : List.Forall₂ IsEnriched units enriched)
    (hunits : ∀ u ∈ units, u.indexId = none) : ∀ u ∈ enriched.map (·.1), u.indexId = none := by
  intro u hu
  obtain ⟨r, hr, rfl⟩ := List.mem_map.1 hu
  obtain ⟨v, hv, hvr⟩ := exists_of_forall₂_right h hr
  exact hvr.indexId.trans (hunits v hv)

theorem judged_enriched (h : List.Forall₂ IsEnriched units enriched) :
    (enriched.map (·.2)).map (·.judgedBy)
      = (enriched.map (·.1)).filterMap fun u => u.verdict.map (·.source) := by
  induction h with
  | nil => rfl
  | cons hr _ ih => simp [hr.judged, ih]

theorem verdicts_offered (h : List.Forall₂ IsOffered units offered) :
    ((offered.map (·.unit)).filterMap fun u => u.verdict.map (·.source))
      = units.filterMap fun u => u.verdict.map (·.source) := by
  induction h with
  | nil => rfl
  | cons ho _ ih => simp only [List.map_cons, List.filterMap_cons, ho.verdict, ih]

theorem taken_offered (h : List.Forall₂ IsOffered units offered) :
    offered.countP (·.taken) = (offered.map (·.unit)).countP (·.indexId.isSome) := by
  induction h with
  | nil => rfl
  | cons ho _ ih => simp only [List.map_cons, List.countP_cons, ho.taken, ih]

/-- What holds of each unit of a task holds along the list of units it comes to. -/
theorem hasFindings_trans {units' units'' : List CodeUnit}
    (h : List.Forall₂ CodeUnit.HasFindings units units')
    (h' : List.Forall₂ CodeUnit.HasFindings units' units'') :
    List.Forall₂ CodeUnit.HasFindings units units'' := by
  induction h generalizing units'' with
  | nil => exact h'
  | cons huv _ ih =>
    cases h' with
    | cons hvw hrest => exact .cons (huv.trans hvw) (ih hrest)

end

/-- The work on a file accounts for it, however it goes. -/
theorem endsIn_work (s : Workshop) {f : ParsedFile} (hf : ∀ u ∈ f.units, u.IsFresh) :
    (s.work f).EndsIn (·.Accounts f) := by
  refine (Task.endsIn_true Task.isCancelled).bind fun stopped _ => ?_
  split
  · exact Task.endsIn_pure (FileOutcome.accounts_of_units hf rfl rfl rfl)
  refine (Task.endsIn_mapM fun u _ => endsIn_enrich s.enricher u).bind fun enriched henriched => ?_
  have hunits : List.Forall₂ CodeUnit.HasFindings f.units (enriched.map (·.1)) :=
    List.forall₂_map_right_iff.2 (henriched.imp fun u r h => h.unit)
  have hids := indexId_enriched henriched fun u hu => (hf u hu).indexId
  refine (Task.endsIn_true Task.isCancelled).bind fun stopped _ => ?_
  split
  · refine Task.endsIn_pure ⟨hunits, ?_, judged_enriched henriched⟩
    exact (List.countP_eq_zero.2 fun u hu => by simp [hids u hu]).symm
  refine (Task.endsIn_true (Task.renew _)).bind fun renewed _ => ?_
  refine (Task.endsIn_mapM fun u hu => endsIn_offer s _ (hids u hu)).bind fun offered hoffered => ?_
  refine Task.endsIn_pure ⟨hasFindings_trans hunits ?_, taken_offered hoffered, ?_⟩
  · exact List.forall₂_map_right_iff.2 (hoffered.imp fun u o h => h.unit)
  · exact (judged_enriched henriched).trans (verdicts_offered hoffered).symm

/-! ### The report -/

/-- The numbers of a report are those of the records. -/
structure RunReport.Counts (r : RunReport) (records : List ManifestRecord) : Prop where
  reusable : r.reusable = records.countP (·.reusable)
  indexed : r.indexed = records.countP (·.indexId.isSome)
  modelVerdicts : r.modelVerdicts = records.countP (·.source == some .model)
  verdicts : r.modelVerdicts + r.fallbackVerdicts = records.countP (·.source.isSome)

theorem foldl_addVerdict (reports : List EnrichReport) (r : RunReport) :
    reports.foldl (fun r e => r.addVerdict e.judgedBy) r = { r with
      modelVerdicts := r.modelVerdicts + reports.countP (!·.judgedBy.isFallback)
      fallbackVerdicts := r.fallbackVerdicts + reports.countP (·.judgedBy.isFallback) } := by
  induction reports generalizing r with
  | nil => rfl
  | cons e reports ih =>
    rw [List.foldl_cons, ih, RunReport.addVerdict]
    cases h : e.judgedBy.isFallback <;> simp [h, Nat.add_assoc, Nat.add_comm 1]

/-- Adding what became of a file changes the numbers that are about units by what it has. -/
theorem addOutcome_numbers (r : RunReport) (o : FileOutcome) :
    (Project.addOutcome r o).units = r.units
      ∧ (Project.addOutcome r o).reusable = r.reusable + o.units.countP CodeUnit.isReusable
      ∧ (Project.addOutcome r o).indexed = r.indexed + o.indexed
      ∧ (Project.addOutcome r o).modelVerdicts
        = r.modelVerdicts + o.reports.countP (!·.judgedBy.isFallback)
      ∧ (Project.addOutcome r o).fallbackVerdicts
        = r.fallbackVerdicts + o.reports.countP (·.judgedBy.isFallback) := by
  simp only [Project.addOutcome, foldl_addVerdict]
  cases o.sync <;> exact ⟨rfl, rfl, rfl, rfl, rfl⟩

theorem FileOutcome.Accounts.countP_model {o : FileOutcome} {f : ParsedFile} (h : o.Accounts f) :
    o.reports.countP (!·.judgedBy.isFallback)
      = (o.units.map ManifestRecord.ofUnit).countP (·.source == some .model) := by
  have hjudged := congrArg (List.countP (!·.isFallback)) h.judged
  rw [List.countP_map, List.countP_filterMap] at hjudged
  rw [List.countP_map]
  refine hjudged.trans (List.countP_congr fun u _ => ?_)
  cases hv : u.verdict with
  | none => simp [ManifestRecord.ofUnit, hv]
  | some v => cases hs : v.source <;> simp [ManifestRecord.ofUnit, hv, hs, Source.isFallback]

theorem FileOutcome.Accounts.length_reports {o : FileOutcome} {f : ParsedFile} (h : o.Accounts f) :
    o.reports.length = (o.units.map ManifestRecord.ofUnit).countP (·.source.isSome) := by
  have hjudged := congrArg List.length h.judged
  rw [List.length_map, List.length_filterMap_eq_countP] at hjudged
  rw [hjudged, List.countP_map]
  rfl

theorem RunReport.Counts.addOutcome {r : RunReport} {records : List ManifestRecord}
    (h : r.Counts records) {o : FileOutcome} {f : ParsedFile} (ho : o.Accounts f) :
    (Project.addOutcome r o).Counts (records ++ o.units.map ManifestRecord.ofUnit) := by
  obtain ⟨-, hreusable, hindexed, hmodel, hfallback⟩ := addOutcome_numbers r o
  have hreports := List.length_eq_countP_add_countP (·.judgedBy.isFallback) (l := o.reports)
  have hlength := ho.length_reports
  have hcount := ho.countP_model
  have hverdicts := h.verdicts
  constructor
  · rw [hreusable, h.reusable, List.countP_append, List.countP_map]
    rfl
  · rw [hindexed, h.indexed, ho.indexed, List.countP_append, List.countP_map]
    rfl
  · rw [hmodel, h.modelVerdicts, hcount, List.countP_append]
  · simp only [Bool.not_eq_true, Bool.decide_eq_false] at hreports
    rw [hmodel, hfallback, List.countP_append]
    omega

/-- Adding up what became of all files counts their records. -/
theorem counts_foldl_addOutcome {jobs : List (ParsedFile × Nat)} {outcomes : List FileOutcome}
    (h : List.Forall₂ (fun job o => o.Accounts job.1) jobs outcomes) {r : RunReport}
    {records : List ManifestRecord} (hr : r.Counts records) :
    (outcomes.foldl Project.addOutcome r).units = r.units
      ∧ (outcomes.foldl Project.addOutcome r).Counts
        (records ++ outcomes.flatMap fun o => o.units.map ManifestRecord.ofUnit) := by
  induction h generalizing r records with
  | nil => exact ⟨rfl, by simpa using hr⟩
  | cons ho _ ih =>
    obtain ⟨hunits, hcounts⟩ := ih (hr.addOutcome ho)
    rw [List.foldl_cons, List.flatMap_cons, ← List.append_assoc]
    exact ⟨hunits.trans (addOutcome_numbers r _).1, hcounts⟩

/-! ### The manifest -/

/-- A record says of a unit what the scan has found. -/
structure ManifestRecord.Shows (r : ManifestRecord) (u : CodeUnit) : Prop where
  id : r.id = u.id
  file : r.file = u.file
  language : r.language = u.language
  scope : r.scope = u.scope
  name : r.name = u.name
  signature : r.signature = u.signature
  range : r.range = u.range
  body : r.body = u.body
  callsOut : r.callsOut = u.callsOut
  callsIn : r.callsIn = u.callsIn

theorem CodeUnit.HasFindings.shows {u v : CodeUnit} (h : u.HasFindings v) :
    (ManifestRecord.ofUnit v).Shows u := by
  obtain ⟨_, _, _, rfl⟩ := h
  exact ⟨rfl, rfl, rfl, rfl, rfl, rfl, rfl, rfl, rfl, rfl⟩

theorem shows_of_accounts {jobs : List (ParsedFile × Nat)} {outcomes : List FileOutcome}
    (h : List.Forall₂ (fun job o => o.Accounts job.1) jobs outcomes) :
    List.Forall₂ ManifestRecord.Shows
      (outcomes.flatMap fun o => o.units.map ManifestRecord.ofUnit)
      (jobs.flatMap fun job => job.1.units) := by
  induction h with
  | nil => exact .nil
  | cons ho _ ih =>
    have hfirst : List.Forall₂ ManifestRecord.Shows _ _ :=
      List.forall₂_map_left_iff.2 (ho.units.flip.imp fun v u => CodeUnit.HasFindings.shows)
    exact List.rel_append hfirst ih

/-- Files without units have no part in the units of a scan. -/
theorem flatMap_workList (s : Scan) :
    ((Project.workList s).flatMap fun job => job.1.units) = s.units := by
  have h (jobs : List (ParsedFile × Nat)) :
      (jobs.filter fun job => !job.1.units.isEmpty).flatMap (fun job => job.1.units)
        = (jobs.map (·.1)).flatMap (·.units) := by
    induction jobs with
    | nil => rfl
    | cons job jobs ih =>
      cases hunits : job.1.units <;> simp [hunits, ih]
  exact (h s.files.zipIdx).trans (by rw [List.zipIdx_map_fst, Scan.units])

/-- A project whose service finds nothing to reuse. -/
def unusedProject : Project where
  config := { root := "/p", manifest := some "m.json" }
  enricher := ⟨some fun _ _ => .of (.answer ⟨false, "", .half, .model⟩), none⟩
  index := .null

/-- The world of two files with a unit each. -/
def unusedWorld : World := unusedProject.startWorld {
  entries := [(["p"], .directory), (["p", "b.py"], .file 0 (.text "def f():\n  pass\n")),
    (["p", "a.py"], .file 1 (.text "def g():\n  f()\n"))]
  nextSerial := 2
  workingDirectory := [] }

end Marginalia
