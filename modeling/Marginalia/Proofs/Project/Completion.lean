import Marginalia.Proofs.Project.Changes

/-!
Which runs come to a report. Once the tree has been scanned only the manifest can fail, which is
written last. If it could have been written in the beginning it can be in the end, since files come
to no place for good where there was none: the hidden files are gone again.
-/

namespace Marginalia

/-- When all work has ended, nothing has come where nothing was. -/
theorem Outset.Tracks.thinsTo {o : Outset} {stage : ParsedFile → Stage} {t : FileTree}
    (h : o.Tracks stage t)
    (hsettled : ∀ f, o.worked f → stage f = .before ∨ (stage f).isMoved = true) :
    o.tree.ThinsTo t := by
  refine ⟨h.intact.ways, ?_⟩
  intro q hq
  by_cases hhides : ∃ f, o.worked f ∧ o.HidesAt f q
  · obtain ⟨f, hf, hfq⟩ := hhides
    have hshows := h.shows f hf
    cases hstage : stage f with
    | before =>
      rw [hstage] at hshows
      exact (hshows q (.inr hfq)).trans hq
    | written text => rcases hsettled f hf with h | h <;> cases hstage ▸ h
    | moved text =>
      rw [hstage] at hshows
      exact hshows.2.2 q hfq
  · refine h.vacant q hq ?_
    intro f hf hfq
    exact hhides ⟨f, hf, hfq⟩

namespace Project

variable {p : Project} {s : Scan}

/-- When all files have been worked on, nothing has come where nothing was. -/
theorem IsClear.thinsTo {w w' : World} {ended : List Ended} (h : p.IsClear s w.tree)
    (hscan : p.scan w = .ok s) (hedits : p.workshop.EditsNothing)
    (hsteps : Crew.Steps p.workshop p.config.parallelism (.start (workList s), w)
      (⟨[], [], ended⟩, w')) : w.tree.ThinsTo w'.tree := by
  obtain ⟨stage, htracks, hfits⟩ := h.outcomes hscan hedits hsteps
  refine htracks.thinsTo ?_
  intro f hf
  obtain ⟨number, hjob⟩ := exists_mem_workList hf.1 hf.2
  obtain ⟨pairs, hfiles, -, hpairs⟩ := exists_pairs_of_forall₂ hfits
  rw [← hfiles] at hjob
  obtain ⟨x, hx, hxf⟩ := List.mem_map.1 hjob
  have hsettled := (hpairs x hx).settled
  rwa [hxf] at hsettled

/-- With globs that can be read, the tree is scanned whatever it holds. -/
theorem exists_scan {walker : Walker} (h : p.config.walker = .ok walker) (w : World) :
    ∃ s, p.scan w = .ok s := ⟨_, scan_of_walker h⟩

/-- A run comes to a report unless the manifest cannot be written, behind all the work on files. It
comes to a report in any case if the services and the paths of what it writes keep clear of other
files and the manifest could be written before the run. -/
theorem run_reports {walker : Walker} (hwalker : p.config.walker = .ok walker) {w w' : World}
    {result : Except RunError RunReport} (h : p.RunsTo w (result, w')) :
    ∃ s, p.scan w = .ok s
      ∧ (∀ e, result = .error e → ∃ ended w₁ records,
        Crew.Steps p.workshop p.config.parallelism (.start (workList s), w) (⟨[], [], ended⟩, w₁)
          ∧ writeManifest w₁.tree p.config.manifestPath records = (.error e, w'.tree))
      ∧ (p.workshop.EditsNothing → p.IsClear s w.tree →
        ManifestFits w.tree p.config.manifestPath → ∃ report, result = .ok report) := by
  generalize hx : (result, w') = x at h
  cases h with
  | unscanned scanned =>
    obtain ⟨s, hs⟩ := exists_scan hwalker w
    cases hs.symm.trans scanned
  | @concluded s ended w₁ scanned worked =>
    have hresult := (congrArg Prod.fst hx).trans (p.report_conclude s _ w₁)
    have htree := (congrArg (·.2.tree) hx).trans (p.tree_conclude s _ w₁)
    refine ⟨s, scanned, ?_, ?_⟩
    · rintro e rfl
      refine ⟨ended, w₁, _, worked, Prod.ext ?_ htree.symm⟩
      cases hwrite : (writeManifest w₁.tree p.config.manifestPath
          ((Crew.outcomes ⟨[], [], ended⟩).flatMap fun o => o.units.map ManifestRecord.ofUnit)).1
      all_goals
        rw [hwrite] at hresult
        cases hresult
      rfl
    · intro hedits hclear hfits
      have hwrite := hfits.writeManifest (hclear.thinsTo scanned hedits worked)
        ((Crew.outcomes ⟨[], [], ended⟩).flatMap fun o => o.units.map ManifestRecord.ofUnit)
      rw [hwrite] at hresult
      exact ⟨_, hresult⟩

theorem run_reports_strayEnd : ∃ walker s result w',
    indexingProject.config.walker = .ok walker
      ∧ indexingProject.RunsTo leftOverWorld (result, w')
      ∧ indexingProject.scan leftOverWorld = .ok s ∧ indexingProject.IsClear s leftOverWorld.tree
      ∧ ManifestFits leftOverWorld.tree indexingProject.config.manifestPath
      ∧ ∃ report, result = .ok report := by
  obtain ⟨walker, s, report, w', hwalker, hscan, hclear, -, hruns, -⟩ :=
    exists_of_checkRun checkRun_leftOverWorld (by decide)
  have hfits : ManifestFits leftOverWorld.tree indexingProject.config.manifestPath :=
    ⟨[], by decide +kernel⟩
  obtain ⟨s', hscan', -, hreports⟩ := run_reports hwalker hruns
  obtain rfl := Except.ok.inj (hscan.symm.trans hscan')
  exact ⟨walker, s, _, w', hwalker, hruns, hscan, hclear, hfits,
    hreports editsNothing_indexingProject hclear hfits⟩

/-- A project without services and with standard settings. -/
def plainProject : Project where
  config := { root := "/p" }
  enricher := ⟨none, none⟩
  index := .null

/-- The world of a source with a stray end of a block, where a file stands in the way of the
manifest. -/
def occupiedWorld : World := plainProject.startWorld {
  entries := [(["p"], .directory), (["p", "a.py"], .file 0 (.text strayEndText)),
    (["p", ".madl"], .file 1 (.text "kept\n"))]
  nextSerial := 2
  workingDirectory := [] }

/-- The run that is not interrupted fails when it has changed a file already. -/
def checkFails (p : Project) (w : World) : Bool :=
  match p.config.walker, p.run w with
  | .ok walker, (.error _, w') => (walker.walk w.tree).any fun f => f.isChanged w.tree w'.tree
  | _, _ => false

/-- A run may fail when it has changed files already. -/
theorem run_fails_behind_changes : plainProject.workshop.EditsNothing
    ∧ plainProject.config.check occupiedWorld.tree = .ok ()
    ∧ ∃ walker e w', plainProject.config.walker = .ok walker
      ∧ plainProject.RunsTo occupiedWorld (.error e, w')
      ∧ ∃ f ∈ walker.walk occupiedWorld.tree, f.isChanged occupiedWorld.tree w'.tree = true := by
  have hcheck : plainProject.checkFails occupiedWorld = true := by decide +kernel
  have hruns := plainProject.runsTo_run occupiedWorld (by decide)
  unfold checkFails at hcheck
  split at hcheck
  · rename_i walker e w' hwalker hrun
    rw [hrun] at hruns
    obtain ⟨f, hf, hchanged⟩ := List.any_eq_true.1 hcheck
    refine ⟨⟨?_, ?_, ?_⟩, by decide +kernel, walker, e, w', hwalker, hruns, f, hf, hchanged⟩ <;>
      rintro ask hask <;> cases hask
  · cases hcheck

end Project

end Marginalia
