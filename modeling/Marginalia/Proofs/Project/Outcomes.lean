import Marginalia.Proofs.Project.Advances
import Marginalia.Proofs.Project.Outputs
import Marginalia.Proofs.Synchronize.Placement

/-!
What the outcome of a file tells about the file. It tells whether the file has been written, unless
its task has crashed: then the file is counted as left alone, although the index may have crashed
when the file had been written already.
-/

namespace Marginalia

/-- The stage to which putting a text in the place of a file takes it. -/
def Stage.behind (text : String) : Except SyncError Unit → Stage
  | .ok () => .moved text
  | .error _ => .before

/-- Work on a file may crash before the file is written, or behind that if the index may crash. -/
def Workshop.MayCrash (s : Workshop) (stage : Stage) : Prop :=
  stage = .before ∨ stage.isMoved = true ∧ ¬s.index.NeverCrashes

/-- The work on the file has crashed. -/
def FileOutcome.hasCrashed (o : FileOutcome) : Bool := o.diagnostics.any (·.kind == .task)

/-- What became of a file fits the stage at which it was left. Unless its task has crashed, the file
has been written exactly if the outcome says so. -/
structure FileOutcome.Fits (s : Workshop) (f : ParsedFile) (stage : Stage) (o : FileOutcome) :
    Prop where
  settled : stage = .before ∨ stage.isMoved = true
  named : ∀ d ∈ o.diagnostics, d.kind = .task → d.path = f.file.relative
  counted : o.hasCrashed = false → stage.isMoved = (o.sync.any (·.changed) && !s.dryRun)
  crashed : o.hasCrashed = true → o.sync = none ∧ s.MayCrash stage

/-! ### Bringing a file in step -/

section

variable {o : Outset} {f : ParsedFile} {mayCrash : Stage → Prop}

theorem advances_isCancelled {stage : Stage} :
    Task.isCancelled.Advances o f mayCrash (fun stage' _ => stage' = stage) stage := fun _ => rfl

theorem advances_replaceBy {beside text : String} (hbeside : f.hidden? o.dryRun = some beside)
    (hsame : o.same f text) (hne : text ≠ f.text) :
    (Task.replaceBy f.file.path beside text).Advances o f mayCrash
      (fun stage done => stage = .behind text (done.mapError .file)) .before :=
  ⟨hbeside, hsame, hne, rfl, fun _ => rfl, hbeside, rfl, text, rfl, rfl⟩

/-- Putting another text in the place of a file takes it to the stage that the answer tells. -/
theorem advances_commit {text : String} (hdry : o.dryRun = false) (hsame : o.same f text)
    (hne : text ≠ f.text) :
    (Task.commit f.file.path text).Advances o f mayCrash
      (fun stage done => stage = .behind text done) .before := by
  unfold Task.commit
  cases hbeside : besidePath? f.file.path with
  | none => exact rfl
  | some beside =>
    have hhidden : f.hidden? o.dryRun = some beside := by
      rw [ParsedFile.hidden?, hdry, hbeside]
      rfl
    exact (advances_replaceBy hhidden hsame hne).bind fun stage done h => Task.advances_pure h

/-- Whether the file has been written is told by the outcome and by the answer. -/
structure Stage.AgreesWith (stage : Stage) (dryRun : Bool) (o : SyncOutcome)
    (done : Except SyncError Unit) : Prop where
  settled : stage = .before ∨ stage.isMoved = true
  written : stage.isMoved = (done.isOk && o.changed && !dryRun)

theorem advances_commitOutcome {path : String} (hpath : path = f.file.path) {outcome : SyncOutcome}
    (hsame : o.dryRun = false → o.same f outcome.text)
    (hchanged : outcome.changed = true → outcome.text ≠ f.text) :
    (Task.commitOutcome path outcome o.dryRun).Advances o f mayCrash
      (fun stage done => stage.AgreesWith o.dryRun outcome done) .before := by
  subst hpath
  unfold Task.commitOutcome
  split
  · rename_i hwrite
    obtain ⟨hnew, hdry⟩ : outcome.changed = true ∧ o.dryRun = false := by simpa using hwrite
    have hcommit : (Task.commit f.file.path outcome.text).Advances o f mayCrash _ .before :=
      advances_commit hdry (hsame hdry) (hchanged hnew)
    rw [← bind_pure (Task.commit f.file.path outcome.text)]
    refine hcommit.bind ?_
    rintro stage done rfl
    cases done with
    | error e => exact Task.advances_pure ⟨.inl rfl, rfl⟩
    | ok done => exact Task.advances_pure ⟨.inr rfl, by rw [hnew, hdry]; rfl⟩
  · rename_i hstay
    refine Task.advances_pure ⟨.inl rfl, ?_⟩
    have hnot : (outcome.changed && !o.dryRun) = false := by simpa using hstay
    rw [Bool.and_assoc, hnot, Bool.and_false]
    rfl

/-- What bringing a file in step comes to. -/
def Stage.Renews (stage : Stage) (dryRun : Bool) : Except FileError Renewed → Prop
  | .error _ => stage = .before
  | .ok ⟨o, done⟩ => stage.AgreesWith dryRun o done

/-- A file that is as it was is read as it was. -/
theorem advances_readFile {α : Type} {ends : Stage → α → Prop} {path : String}
    {k : Except FileError String → Task α} (hpath : path = f.file.path)
    (hk : (k (.ok f.text)).Advances o f mayCrash ends .before) :
    (Task.once (.readFile path) >>= k).Advances o f mayCrash ends .before := ⟨hpath, rfl, hk⟩

theorem advances_renew {r : Renewal} (hpath : r.path = f.file.path) (hdry : r.dryRun = o.dryRun)
    (hsync : o.dryRun = false → o.same f (synchronize r.lookback f.text r.language r.units).text) :
    (Task.renew r).Advances o f mayCrash (fun stage renewed => stage.Renews o.dryRun renewed)
      .before := by
  have hchanged : (synchronize r.lookback f.text r.language r.units).changed = true →
      (synchronize r.lookback f.text r.language r.units).text ≠ f.text := by
    intro h
    simpa [synchronize] using h
  unfold Task.renew
  refine advances_readFile hpath ?_
  dsimp only
  generalize synchronize r.lookback f.text r.language r.units = outcome at hsync hchanged ⊢
  rw [hdry]
  refine (advances_commitOutcome hpath hsync hchanged).bind ?_
  intro stage done h
  exact Task.advances_pure h

end

/-! ### The work on a file -/

section

variable {s : Workshop} {o : Outset} {f : ParsedFile} {mayCrash : Stage → Prop} {stage : Stage}

theorem advances_obtain {α : Type} {call : Option (Task (Except ServiceError α))}
    (hcall : ∀ t, call = some t →
      t.Advances o f mayCrash (fun stage' _ => stage' = stage) stage)
    (label : String) (rule : Source → α) :
    (obtain call label rule).Advances o f mayCrash (fun stage' _ => stage' = stage) stage := by
  cases call with
  | none => exact rfl
  | some t =>
    intro allowed
    cases allowed with
    | false => exact rfl
    | true =>
      refine (hcall t rfl).bind ?_
      rintro stage' answer rfl
      cases answer <;> exact rfl

theorem advances_enrich (hs : s.EditsNothing) (hstage : mayCrash stage) (u : CodeUnit) :
    (s.enricher.enrich u).Advances o f mayCrash (fun stage' _ => stage' = stage) stage := by
  have hverdict : (s.enricher.obtainVerdict u).Advances o f mayCrash
      (fun stage' _ => stage' = stage) stage := by
    refine advances_obtain (fun t ht => ?_) _ _
    obtain ⟨ask, hask, rfl⟩ := Option.map_eq_some_iff.1 ht
    exact ⟨hs.judge ask hask, hstage, fun _ => rfl⟩
  have hdescribed (u : CodeUnit) : (s.enricher.obtainAnnotation u).Advances o f mayCrash
      (fun stage' _ => stage' = stage) stage := by
    refine advances_obtain (fun t ht => ?_) _ _
    obtain ⟨ask, hask, rfl⟩ := Option.map_eq_some_iff.1 ht
    exact ⟨hs.describe ask hask, hstage, fun _ => rfl⟩
  refine hverdict.bind ?_
  rintro stage' v rfl
  dsimp only
  split
  · refine (hdescribed _).bind ?_
    rintro stage' a rfl
    exact rfl
  · exact rfl

/-- Offering a unit to the index leaves the file at its stage and never reports a crash. -/
theorem advances_offer (hindex : s.index = o.index)
    (hcrash : s.index.NeverCrashes ∨ mayCrash stage) (relative : String) (u : CodeUnit) :
    (s.offer relative u).Advances o f mayCrash
      (fun stage' offered => stage' = stage ∧ ∀ d ∈ offered.diagnostics, d.kind = .index)
      stage := by
  unfold Workshop.offer
  split
  · refine ⟨hindex, hcrash, fun answer => ?_⟩
    cases answer with
    | ok id => exact ⟨rfl, by simp⟩
    | error e => exact ⟨rfl, by simp [Diagnostic.ofUnit]⟩
  · exact ⟨rfl, by simp⟩

end

theorem kind_enrichIssues {relative : String} {enriched : List (CodeUnit × EnrichReport)}
    {d : Diagnostic} (hd : d ∈ Workshop.enrichIssues relative enriched) : d.kind = .enrich := by
  obtain ⟨⟨u, r⟩, -, hd⟩ := List.mem_flatMap.1 hd
  obtain ⟨message, -, rfl⟩ := List.mem_map.1 hd
  rfl

theorem kind_syncResult {relative : String} {r : Except FileError Renewed} {d : Diagnostic}
    (hd : d ∈ (Workshop.syncResult relative r).2) : d.kind ≠ .task := by
  cases r with
  | error e =>
    rw [List.mem_singleton.1 hd]
    simp [Diagnostic.ofFile]
  | ok renewed =>
    obtain ⟨o, done⟩ := renewed
    cases done with
    | ok done =>
      obtain ⟨s, -, rfl⟩ := List.mem_map.1 hd
      simp [Diagnostic.ofUnit]
    | error e =>
      rcases List.mem_append.1 hd with hd | hd
      · obtain ⟨s, -, rfl⟩ := List.mem_map.1 hd
        simp [Diagnostic.ofUnit]
      · rw [List.mem_singleton.1 hd]
        simp [Diagnostic.ofFile]

/-- What is kept of bringing a file in step tells whether it has been written. -/
theorem changed_syncResult {stage : Stage} {dryRun : Bool} {r : Except FileError Renewed}
    (h : stage.Renews dryRun r) (relative : String) :
    stage.isMoved = ((Workshop.syncResult relative r).1.any (·.changed) && !dryRun) := by
  cases r with
  | error e =>
    obtain rfl : stage = .before := h
    rfl
  | ok renewed =>
    obtain ⟨o, done⟩ := renewed
    rw [Stage.AgreesWith.written h]
    cases done with
    | ok done => simp [Workshop.syncResult, Except.isOk, Except.toBool]
    | error e => simp [Workshop.syncResult, Except.isOk, Except.toBool]

namespace FileOutcome

variable {s : Workshop} {f : ParsedFile} {stage : Stage} {o : FileOutcome}

/-- An outcome without a crash fits if it says what has been written. -/
theorem fits_of_kinds (hsettled : stage = .before ∨ stage.isMoved = true)
    (hkinds : ∀ d ∈ o.diagnostics, d.kind ≠ .task)
    (hcounted : stage.isMoved = (o.sync.any (·.changed) && !s.dryRun)) : o.Fits s f stage := by
  have hnot : o.hasCrashed = false := by
    rw [hasCrashed, List.any_eq_false]
    intro d hd
    simpa using hkinds d hd
  refine ⟨hsettled, ?_, fun _ => hcounted, ?_⟩
  · intro d hd hkind
    exact absurd hkind (hkinds d hd)
  · intro hcrashed
    rw [hnot] at hcrashed
    cases hcrashed

theorem fits_crashed (h : s.MayCrash stage) (number : Nat) (message : String) :
    (crashed number f message).Fits s f stage := by
  refine ⟨h.imp id And.left, ?_, ?_, fun _ => ⟨rfl, h⟩⟩
  · intro d hd hkind
    rw [List.mem_singleton.1 hd]
    rfl
  · intro hnot
    cases hnot

end FileOutcome

/-- The work on a file advances it to a stage that fits what became of it. -/
theorem advances_work {s : Workshop} (hs : s.EditsNothing) (t : FileTree)
    (worked : ParsedFile → Prop) (f : ParsedFile) :
    (s.work f).Advances (s.outset t worked) f s.MayCrash (fun stage o => o.Fits s f stage)
      .before := by
  refine advances_isCancelled.bind ?_
  rintro stage stopped rfl
  split
  · exact Task.advances_pure (FileOutcome.fits_of_kinds (.inl rfl) (by
      simp [FileOutcome.untouched, Diagnostic.ofFile]) rfl)
  refine (Task.advances_mapM (R := fun _ _ => True) fun u _ => ?_).bind ?_
  · rw [← bind_pure (s.enricher.enrich u)]
    refine (advances_enrich hs (.inl rfl) u).bind ?_
    rintro stage r rfl
    exact Task.advances_pure ⟨rfl, trivial⟩
  rintro stage enriched ⟨rfl, -⟩
  refine advances_isCancelled.bind ?_
  rintro stage stopped rfl
  split
  · refine Task.advances_pure (FileOutcome.fits_of_kinds (.inl rfl) ?_ rfl)
    intro d hd
    rcases List.mem_append.1 hd with hd | hd
    · rw [kind_enrichIssues hd]
      decide
    · rw [List.mem_singleton.1 hd]
      simp [Diagnostic.ofFile]
  refine (advances_renew rfl rfl fun hdry => ?_).bind ?_
  · exact .inr ⟨hdry, text_strip_synchronize s.lookback f.text f.file.language _⟩
  rintro stage renewed hrenews
  have hsettled : stage = .before ∨ stage.isMoved = true := by
    cases renewed with
    | error e => exact .inl hrenews
    | ok renewed => exact Stage.AgreesWith.settled hrenews
  have hcrash : s.index.NeverCrashes ∨ s.MayCrash stage := by
    by_cases hnever : s.index.NeverCrashes
    · exact .inl hnever
    · exact .inr (hsettled.imp id fun h => ⟨h, hnever⟩)
  refine (Task.advances_mapM (R := fun _ offered => ∀ d ∈ offered.diagnostics, d.kind = .index)
    fun u _ => advances_offer rfl hcrash _ u).bind ?_
  rintro stage' offered ⟨rfl, hoffered⟩
  refine Task.advances_pure (FileOutcome.fits_of_kinds hsettled ?_ (changed_syncResult hrenews _))
  intro d hd
  rcases List.mem_append.1 hd with hd | hd
  · rcases List.mem_append.1 hd with hd | hd
    · rw [kind_enrichIssues hd]
      decide
    · exact kind_syncResult hd
  · obtain ⟨offer, hoffer, hd⟩ := List.mem_flatMap.1 hd
    obtain ⟨u, -, hkinds⟩ := exists_of_forall₂_right hoffered hoffer
    rw [hkinds d hd]
    decide

/-! ### All files -/

namespace Project

variable {p : Project} {s : Scan}

theorem HasRoom.tracks_start {t : FileTree} (h : p.HasRoom s t) :
    (p.outset s t).Tracks (fun _ => .before) t :=
  Outset.tracks_start (Outset.intact_self h.proper.numbered fun _ _ => .inl rfl)

theorem HasRoom.nodup_workList {w : World} (h : p.HasRoom s w.tree) (hscan : p.scan w = .ok s) :
    ((workList s).map (·.1)).Nodup :=
  Marginalia.nodup_workList (nodup_relative_scan h.proper hscan).of_map

/-- However the tasks take turns, each file is at the stage behind all that has been done on it,
which fits what became of it, and whatever was asked of files has been answered as foretold. -/
theorem HasRoom.tracks {places : Nat} {w : World} {log : List (ParsedFile × Deed)}
    {y : Crew × World} (h : p.HasRoom s w.tree) (hscan : p.scan w = .ok s)
    (hedits : p.workshop.EditsNothing)
    (hjournal : Crew.Journal p.workshop places (.start (workList s), w) log y) :
    (p.outset s w.tree).Tracks (fun f => .after (deedsOf log f)) y.2.tree
      ∧ (∀ x ∈ log, (p.outset s w.tree).Foretells x.1 x.2)
      ∧ ∀ e ∈ y.1.ended, e.outcome.Fits p.workshop e.file (.after (deedsOf log e.file)) := by
  have hplaces := h.workplaces hscan
  have hwork (f : ParsedFile) (_ : (p.outset s w.tree).worked f) := advances_work hedits w.tree
    (fun f => f ∈ s.files ∧ f.units ≠ []) f
  have hfiles : ∀ job ∈ workList s, (p.outset s w.tree).worked job.1 := fun job hjob =>
    mem_of_mem_workList hjob
  obtain ⟨htracks, hlog⟩ := hjournal.tracks hplaces hedits.ingest hwork h.tracks_start hfiles
    (h.nodup_workList hscan)
  exact ⟨htracks, hlog, hjournal.fits hplaces hedits.ingest hwork
    (fun f stage number message hcrash => FileOutcome.fits_crashed hcrash number message)
    h.tracks_start hfiles (h.nodup_workList hscan)⟩

/-- However the tasks take turns, in the end each file is at a stage that fits its outcome. -/
theorem IsClear.outcomes {w w' : World} {ended : List Ended} (h : p.IsClear s w.tree)
    (hscan : p.scan w = .ok s) (hedits : p.workshop.EditsNothing)
    (hsteps : Crew.Steps p.workshop p.config.parallelism (.start (workList s), w)
      (⟨[], [], ended⟩, w')) :
    ∃ stage, (p.outset s w.tree).Tracks stage w'.tree
      ∧ List.Forall₂ (fun job o => o.Fits p.workshop job.1 (stage job.1)) (workList s)
        (Crew.outcomes ⟨[], [], ended⟩) := by
  obtain ⟨log, hjournal⟩ := Crew.steps_iff_journal.1 hsteps
  obtain ⟨htracks, -, hfits⟩ := h.hasRoom.tracks hscan hedits hjournal
  exact ⟨_, htracks, Crew.forall₂_of_ended
    (P := fun f o => o.Fits p.workshop f (.after (deedsOf log f))) (pairwise_workList s) hsteps
    hfits⟩

end Project

end Marginalia
