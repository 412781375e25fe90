import Marginalia.Proofs.Project.Code
import Marginalia.Proofs.Project.Outcomes
import Marginalia.Proofs.Project.Records

/-!
Which files a run changes, and how many of them its report counts. A file that has been written is
counted, unless its task has crashed behind that: then the report tells of the crash and counts the
file as left alone. Only the index can crash so late.
-/

namespace Marginalia

/-- What the file at a place holds. -/
def FileTree.content? (t : FileTree) (place : Location) : Option Content :=
  match t.at? place with
  | some (.file _ c) => some c
  | _ => none

theorem FileTree.content?_of_at? {t : FileTree} {place : Location} {n : Nat} {c : Content}
    (h : t.at? place = some (.file n c)) : t.content? place = some c := by
  rw [content?, h]

/-- Where the file was found in one tree, something else stands in another. -/
def SourceFile.isChanged (f : SourceFile) (t t' : FileTree) : Bool :=
  match t.find f.path with
  | .ok (place, .file _ c) => t'.content? place != some c
  | _ => false

/-- A file at a stage is changed exactly if it has been written, and stays so where the tree
does. -/
theorem Stage.Shows.isChanged_eq {o : Outset} {f : ParsedFile} {t t' : FileTree} {stage : Stage}
    (h : stage.Shows o f t) {place : Location} (hplace : f.StandsAt o.tree place)
    (hsettled : stage = .before ∨ stage.isMoved = true)
    (hstays : ∀ n c, t.at? place = some (.file n c) → t'.at? place = some (.file n c)) :
    f.file.isChanged o.tree t' = stage.isMoved := by
  obtain ⟨n, hfile⟩ := hplace.file
  rw [SourceFile.isChanged, FileTree.find_of_locateLast hplace.located hfile]
  dsimp only
  cases stage with
  | before =>
    have hat := hstays _ _ ((h place (.inl hplace)).trans hfile)
    simp [FileTree.content?_of_at? hat, isMoved]
  | written text => rcases hsettled with hsettled | hsettled <;> cases hsettled
  | moved text =>
    obtain ⟨hne, hstands, -⟩ := h
    obtain ⟨m, htext, -⟩ := hstands place hplace
    simpa [FileTree.content?_of_at? (hstays _ _ htext), isMoved] using hne

/-- The report tells something of a kind about a file. -/
def RunReport.tells (r : RunReport) (kind : DiagnosticKind) (f : SourceFile) : Bool :=
  r.diagnostics.any fun d => d.kind == kind && d.path == f.relative

/-! ### Counting -/

/-- What is so for none but the elements of a sublist can be counted there. -/
theorem countP_eq_of_sublist {α : Type} {q : α → Bool} {l' l : List α} (h : l'.Sublist l)
    (hnodup : l.Nodup) (hq : ∀ a ∈ l, q a = true → a ∈ l') : l.countP q = l'.countP q := by
  induction h with
  | slnil => rfl
  | @cons l' l a h ih =>
    rw [List.nodup_cons] at hnodup
    have hnot : ¬q a = true := fun ha => hnodup.1 (h.subset (hq a List.mem_cons_self ha))
    rw [List.countP_cons_of_neg hnot]
    exact ih hnodup.2 fun b hb => hq b (List.mem_cons_of_mem _ hb)
  | @cons_cons l' l a h ih =>
    rw [List.nodup_cons] at hnodup
    rw [List.countP_cons, List.countP_cons, ih hnodup.2]
    intro b hb hqb
    refine (List.mem_cons.1 (hq b (List.mem_cons_of_mem _ hb) hqb)).resolve_left ?_
    rintro rfl
    exact hnodup.1 hb

/-- What stands side by side in two lists can be put into pairs. -/
theorem exists_pairs_of_forall₂ {α β : Type} {R : α → β → Prop} {as : List α} {bs : List β}
    (h : List.Forall₂ R as bs) :
    ∃ pairs : List (α × β), pairs.map (·.1) = as ∧ pairs.map (·.2) = bs
      ∧ ∀ x ∈ pairs, R x.1 x.2 := by
  obtain ⟨hlength, hpairs⟩ := List.forall₂_iff_zip.1 h
  refine ⟨as.zip bs, List.map_fst_zip hlength.le, List.map_snd_zip hlength.ge, ?_⟩
  intro x hx
  exact hpairs hx

namespace Project

/-! ### The report -/

/-- The report adds up what became of the files. -/
theorem foldl_addOutcome (outcomes : List FileOutcome) (r : RunReport) :
    (outcomes.foldl addOutcome r).filesChanged
        = r.filesChanged + outcomes.countP (·.sync.any (·.changed))
      ∧ (outcomes.foldl addOutcome r).diagnostics
        = r.diagnostics ++ outcomes.flatMap (·.diagnostics) := by
  induction outcomes generalizing r with
  | nil => simp
  | cons o outcomes ih =>
    obtain ⟨hchanged, hdiagnostics⟩ := ih (addOutcome r o)
    rw [List.foldl_cons, hchanged, hdiagnostics, List.countP_cons, List.flatMap_cons]
    have hverdicts := foldl_addVerdict o.reports
    cases hsync : o.sync with
    | none => simp [addOutcome, hverdicts, hsync, RunReport.addDiagnostics]
    | some outcome =>
      cases hnew : outcome.changed with
      | false => simp [addOutcome, hverdicts, hsync, hnew, RunReport.addDiagnostics]
      | true =>
        simp [addOutcome, hverdicts, hsync, hnew, RunReport.addDiagnostics]
        omega

/-! ### Files of the walk -/

section

variable {p : Project} {s : Scan} {t : FileTree} {walker : Walker} {stage : ParsedFile → Stage}
  {w : World}

/-- A file that is worked on is changed exactly if it has been written. -/
theorem isChanged_worked (hclear : p.IsClear s t) (hscan : p.config.scan t = .ok s)
    (htracks : (p.outset s t).Tracks stage w.tree) {f : ParsedFile}
    (hf : (p.outset s t).worked f) (hspares : ∀ place e,
      t.find f.file.path = .ok (place, e) → ¬p.IsOutput s t place)
    (hsettled : stage f = .before ∨ (stage f).isMoved = true) (outcomes : List FileOutcome) :
    f.file.isChanged t (p.conclude s outcomes w).2.tree = (stage f).isMoved := by
  obtain ⟨place, hplace⟩ := (hclear.workplaces hscan).stands hf
  obtain ⟨n, hfile⟩ := hplace.file
  refine (htracks.shows f hf).isChanged_eq hplace hsettled ?_
  intro m c hat
  exact at?_conclude hclear htracks.intact hat
    (hspares place _ (FileTree.find_of_locateLast hplace.located hfile)) outcomes

/-- Any other file of the walk is not changed. -/
theorem isChanged_idle (hclear : p.IsClear s t) (hscan : p.config.scan t = .ok s)
    (htracks : (p.outset s t).Tracks stage w.tree) (hwalker : p.config.walker = .ok walker)
    {f : SourceFile} (hf : f ∈ walker.walk t) (hidle : ∀ g, (p.outset s t).worked g → f ≠ g.file)
    (hspares : ∀ place e, t.find f.path = .ok (place, e) → ¬p.IsOutput s t place)
    (outcomes : List FileOutcome) :
    f.isChanged t (p.conclude s outcomes w).2.tree = false := by
  unfold SourceFile.isChanged
  split
  · rename_i place n c hfind
    obtain ⟨d, -, rfl, hfile⟩ := FileTree.find_eq_ok hfind
    have hout := hspares _ _ hfind
    have hkept : w.tree.at? d.place = some (.file n c) := by
      refine htracks.intact.kept _ n c hfile (fun hindex => hout (.index hindex hfile)) ?_
      intro g hg
      constructor
      · intro hstands
        exact hidle g hg (file_eq_of_find hclear.proper hscan hg.1 hg.2 hstands hwalker hf hfind)
      · intro hhides
        obtain ⟨path, hpath, hleads⟩ := exists_hiddenPath hg hhides
        exact hout (.temporary (List.mem_cons_of_mem _ hpath) hleads)
    have hat := at?_conclude hclear htracks.intact hkept hout outcomes
    simp [FileTree.content?_of_at? hat]
  · rfl

end

/-- What a run with a report comes to, file by file. -/
structure Breakdown (p : Project) (s : Scan) (walker : Walker) (t t' : FileTree)
    (report : RunReport) where
  /-- How far the work on each file has come. -/
  stage : ParsedFile → Stage
  /-- The files of the work list with what became of them. -/
  pairs : List ((ParsedFile × Nat) × FileOutcome)
  files : pairs.map (·.1) = workList s
  fits : ∀ x ∈ pairs, x.2.Fits p.workshop x.1.1 (stage x.1.1)
  changed : ∀ x ∈ pairs, x.1.1.file.isChanged t t' = (stage x.1.1).isMoved
  /-- Of the walk no other file is changed. -/
  idle : ∀ f ∈ walker.walk t, f.isChanged t t' = true → ∃ x ∈ pairs, f = x.1.1.file
  counted : report.filesChanged = pairs.countP (·.2.sync.any (·.changed))
  told : ∀ f, report.tells .task f = ((pairs.map (·.2)).flatMap (·.diagnostics)).any
    fun d => d.kind == .task && d.path == f.relative

namespace Breakdown

variable {p : Project} {s : Scan} {walker : Walker} {t t' : FileTree} {report : RunReport}

/-- The files of the work list are told apart by their relative paths. -/
theorem nodup (b : Breakdown p s walker t t' report) (ht : t.IsProper)
    (hscan : p.config.scan t = .ok s) :
    (b.pairs.map fun x => x.1.1.file.relative).Nodup := by
  have h := (nodup_relative_scan ht hscan).sublist
    ((sublist_workList s).map fun f => f.file.relative)
  rw [← b.files, List.map_map, List.map_map] at h
  exact h

/-- The report tells of a crash exactly if the task of the file has crashed. -/
theorem tells_task (b : Breakdown p s walker t t' report) (ht : t.IsProper)
    (hscan : p.config.scan t = .ok s) {x : (ParsedFile × Nat) × FileOutcome} (hx : x ∈ b.pairs) :
    report.tells .task x.1.1.file = x.2.hasCrashed := by
  rw [b.told, Bool.eq_iff_iff, FileOutcome.hasCrashed, List.any_eq_true, List.any_eq_true]
  constructor
  · rintro ⟨d, hd, htells⟩
    obtain ⟨hkind, hpath⟩ : d.kind = .task ∧ d.path = x.1.1.file.relative := by simpa using htells
    obtain ⟨o, ho, hdo⟩ := List.mem_flatMap.1 hd
    obtain ⟨y, hy, rfl⟩ := List.mem_map.1 ho
    have hsame := ((b.fits y hy).named d hdo hkind).symm.trans hpath
    obtain rfl := List.inj_on_of_nodup_map (b.nodup ht hscan) hy hx hsame
    exact ⟨d, hdo, by simpa using hkind⟩
  · rintro ⟨d, hd, hkind⟩
    have hkind : d.kind = .task := by simpa using hkind
    refine ⟨d, List.mem_flatMap.2 ⟨x.2, List.mem_map_of_mem hx, hd⟩, ?_⟩
    simp [hkind, (b.fits x hx).named d hd hkind]

/-- The files that have been written are those that are counted and those whose task has crashed
behind that. -/
theorem countP_isMoved (b : Breakdown p s walker t t' report) (hdry : p.config.dryRun = false) :
    b.pairs.countP (fun x => (b.stage x.1.1).isMoved) = report.filesChanged
      + b.pairs.countP (fun x => (b.stage x.1.1).isMoved && x.2.hasCrashed) := by
  rw [b.counted, List.countP_eq_countP_filter_add b.pairs (fun x => (b.stage x.1.1).isMoved)
    (fun x => x.2.hasCrashed), List.countP_filter, List.countP_filter, Nat.add_comm]
  congr 1
  refine List.countP_congr ?_
  intro x hx
  have hfits := b.fits x hx
  cases hcrashed : x.2.hasCrashed with
  | true => simp [hfits.crashed hcrashed]
  | false =>
    have hcounted := hfits.counted hcrashed
    rw [show p.workshop.dryRun = false from hdry, Bool.not_false, Bool.and_true] at hcounted
    simp [hcounted]

/-- Files of the walk that are changed can be counted among those of the work list. -/
theorem countP_walk (b : Breakdown p s walker t t' report) (ht : t.IsProper)
    (hscan : p.config.scan t = .ok s) (hwalker : p.config.walker = .ok walker)
    {q : SourceFile → Bool} (hq : ∀ f ∈ walker.walk t, q f = true → f.isChanged t t' = true) :
    (walker.walk t).countP q = b.pairs.countP fun x => q x.1.1.file := by
  have hfiles : (s.files.map (·.file)).Sublist (walker.walk t) := sublist_walk hscan hwalker
  have hsublist := ((sublist_workList s).map ParsedFile.file).trans hfiles
  have hnodup : (walker.walk t).Nodup := (walker.nodup_relative_walk ht).of_map
  rw [countP_eq_of_sublist hsublist hnodup, ← b.files, List.map_map, List.map_map, List.countP_map]
  · rfl
  · intro f hf hqf
    obtain ⟨x, hx, rfl⟩ := b.idle f hf (hq f hf hqf)
    rw [← b.files]
    exact List.mem_map_of_mem (List.mem_map_of_mem (List.mem_map_of_mem hx))

end Breakdown

/-- A run with a report can be broken down to its files. -/
theorem RunsTo.nonempty_breakdown {p : Project} (hedits : p.workshop.EditsNothing) {walker : Walker}
    (hwalker : p.config.walker = .ok walker) {w w' : World} {s : Scan} (hscan : p.scan w = .ok s)
    (hclear : p.IsClear s w.tree) (hspares : p.Spares s w.tree walker) {report : RunReport}
    (h : p.RunsTo w (.ok report, w')) :
    Nonempty (Breakdown p s walker w.tree w'.tree report) := by
  obtain ⟨ended, w₁, hworked, rfl, rfl⟩ := h.exists_concluded hscan
  obtain ⟨stage, htracks, hfits⟩ := hclear.outcomes hscan hedits hworked
  obtain ⟨pairs, hfiles, houtcomes, hpairs⟩ := exists_pairs_of_forall₂ hfits
  rw [← houtcomes]
  obtain ⟨hcounted, htold⟩ := foldl_addOutcome (pairs.map (·.2))
    { s.report with callEdges := s.graph.stats.edges }
  obtain ⟨-, -, -, hreport⟩ := scan_eq_ok hscan
  refine ⟨⟨stage, pairs, hfiles, hpairs, ?_, ?_, ?_, ?_⟩⟩
  · intro x hx
    have hmem := mem_of_mem_workList (hfiles ▸ List.mem_map_of_mem hx)
    refine isChanged_worked hclear hscan htracks hmem ?_ (hpairs x hx).settled _
    exact hspares _ ((sublist_walk hscan hwalker).subset (List.mem_map_of_mem hmem.1))
  · intro f hf hchanged
    by_contra hnot
    rw [isChanged_idle hclear hscan htracks hwalker hf ?_ (hspares f hf)] at hchanged
    · cases hchanged
    · rintro g hg rfl
      obtain ⟨number, hjob⟩ := exists_mem_workList hg.1 hg.2
      rw [← hfiles] at hjob
      obtain ⟨x, hx, hxg⟩ := List.mem_map.1 hjob
      exact hnot ⟨x, hx, by rw [hxg]⟩
  · refine hcounted.trans ?_
    rw [hreport, Nat.zero_add, List.countP_map]
    rfl
  · intro f
    refine (congrArg (List.any · _) htold).trans ?_
    rw [List.any_append, Bool.or_eq_right_iff_imp]
    intro hscanned
    obtain ⟨d, hd, htells⟩ := List.any_eq_true.1 hscanned
    obtain ⟨hkind, -⟩ : d.kind = .task ∧ _ := by simpa using htells
    rcases kind_of_mem_scan hscan hd with hd | hd <;> cases hkind.symm.trans hd

/-- The report of a run counts the files that it has changed, apart from those of whose crash it
tells. If the index never crashes no such file has been changed. -/
theorem run_counts_changes {p : Project} (hedits : p.workshop.EditsNothing)
    (hdry : p.config.dryRun = false) {walker : Walker} (hwalker : p.config.walker = .ok walker)
    {w w' : World} {s : Scan} (hscan : p.scan w = .ok s) (hclear : p.IsClear s w.tree)
    (hspares : p.Spares s w.tree walker) {report : RunReport}
    (h : p.RunsTo w (.ok report, w')) :
    (walker.walk w.tree).countP (·.isChanged w.tree w'.tree) = report.filesChanged
        + (walker.walk w.tree).countP
          (fun f => f.isChanged w.tree w'.tree && report.tells .task f)
      ∧ (p.index.NeverCrashes → ∀ f ∈ walker.walk w.tree, report.tells .task f = true →
        f.isChanged w.tree w'.tree = false) := by
  obtain ⟨b⟩ := h.nonempty_breakdown hedits hwalker hscan hclear hspares
  have htells := fun x hx => b.tells_task hclear.proper hscan (x := x) hx
  constructor
  · rw [b.countP_walk hclear.proper hscan hwalker fun _ _ hq => hq,
      b.countP_walk hclear.proper hscan hwalker fun _ _ hq => (Bool.and_eq_true_iff.1 hq).1]
    have hmoved := b.countP_isMoved hdry
    rw [List.countP_congr fun x hx => by rw [b.changed x hx], hmoved]
    congr 1
    exact List.countP_congr fun x hx => by rw [b.changed x hx, htells x hx]
  · intro hnever f hf htold
    by_contra hchanged
    have hchanged : f.isChanged w.tree w'.tree = true := by simpa using hchanged
    obtain ⟨x, hx, rfl⟩ := b.idle f hf hchanged
    rw [b.changed x hx] at hchanged
    rw [htells x hx] at htold
    rcases ((b.fits x hx).crashed htold).2 with hbefore | ⟨-, hmay⟩
    · rw [hbefore] at hchanged
      cases hchanged
    · exact hmay hnever

/-! ### Runs that are not interrupted -/

/-- The run that is not interrupted is clear and spares the walk, and a check of its report and of
what it leaves behind holds. -/
def checkRun (p : Project) (w : World) (check : Walker → RunReport → FileTree → Bool) : Bool :=
  match p.config.walker, p.scan w, p.run w with
  | .ok walker, .ok s, (.ok report, w') =>
    p.checkClear s w.tree && p.checkSpares s w.tree walker && check walker report w'.tree
  | _, _, _ => false

theorem exists_of_checkRun {p : Project} {w : World}
    {check : Walker → RunReport → FileTree → Bool} (h : p.checkRun w check = true)
    (hplaces : 0 < p.config.parallelism) :
    ∃ walker s report w', p.config.walker = .ok walker ∧ p.scan w = .ok s
      ∧ p.IsClear s w.tree ∧ p.Spares s w.tree walker ∧ p.RunsTo w (.ok report, w')
      ∧ check walker report w'.tree = true := by
  unfold checkRun at h
  split at h
  · rename_i walker s report w' hwalker hscan hrun
    simp only [Bool.and_eq_true] at h
    obtain ⟨⟨hclear, hspares⟩, hcheck⟩ := h
    refine ⟨walker, s, report, w', hwalker, hscan, isClear_of_checkClear hclear,
      spares_of_checkSpares hspares, ?_, hcheck⟩
    rw [← hrun]
    exact p.runsTo_run w hplaces
  · cases h

/-- The run beside a hidden file that has been left over changes one file. -/
theorem checkRun_leftOverWorld : indexingProject.checkRun leftOverWorld
    (fun _ report _ => report.filesChanged == 1) = true := by decide +kernel

theorem run_counts_changes_strayEnd : indexingProject.workshop.EditsNothing ∧ ∃ walker s report w',
    indexingProject.config.walker = .ok walker ∧ indexingProject.scan leftOverWorld = .ok s
      ∧ indexingProject.IsClear s leftOverWorld.tree
      ∧ indexingProject.Spares s leftOverWorld.tree walker
      ∧ indexingProject.RunsTo leftOverWorld (.ok report, w') ∧ report.filesChanged = 1
      ∧ (walker.walk leftOverWorld.tree).countP (·.isChanged leftOverWorld.tree w'.tree)
        = report.filesChanged + (walker.walk leftOverWorld.tree).countP
          (fun f => f.isChanged leftOverWorld.tree w'.tree && report.tells .task f)
      ∧ ∀ f ∈ walker.walk leftOverWorld.tree, report.tells .task f = true →
        f.isChanged leftOverWorld.tree w'.tree = false := by
  have hedits := editsNothing_indexingProject
  obtain ⟨walker, s, report, w', hwalker, hscan, hclear, hspares, hruns, hone⟩ :=
    exists_of_checkRun checkRun_leftOverWorld (by decide)
  obtain ⟨hcount, hcrashed⟩ := run_counts_changes hedits rfl hwalker hscan hclear hspares hruns
  have hnever : indexingProject.index.NeverCrashes := fun ask hask => by cases hask
  exact ⟨hedits, walker, s, report, w', hwalker, hscan, hclear, hspares, hruns, by simpa using hone,
    hcount, hcrashed hnever⟩

/-- A project that can reuse everything, but whose index crashes. -/
def brokenIndexProject : Project where
  config := { root := "/p", manifest := some "m.json" }
  enricher := ⟨some fun _ _ => .of (.answer ⟨true, "", .half, .model⟩),
    some fun _ _ => .of (.answer default)⟩
  index := .service fun _ _ => .of (.crash "index down")

theorem editsNothing_brokenIndexProject : brokenIndexProject.workshop.EditsNothing := by
  constructor
  all_goals
    rintro ask hask calls u
    cases hask
    rfl

/-- The world of a source with a unit. -/
def brokenIndexWorld : World := brokenIndexProject.startWorld {
  entries := [(["p"], .directory), (["p", "a.py"], .file 0 (.text "def f():\n  pass\n"))]
  nextSerial := 1
  workingDirectory := [] }

/-- When the index crashes, a file has been written already of which the report tells the crash
only. -/
theorem run_changes_crashed_file : brokenIndexProject.workshop.EditsNothing
    ∧ brokenIndexProject.config.check brokenIndexWorld.tree = .ok ()
    ∧ ∃ walker s report w', brokenIndexProject.config.walker = .ok walker
      ∧ brokenIndexProject.scan brokenIndexWorld = .ok s
      ∧ brokenIndexProject.IsClear s brokenIndexWorld.tree
      ∧ brokenIndexProject.Spares s brokenIndexWorld.tree walker
      ∧ brokenIndexProject.RunsTo brokenIndexWorld (.ok report, w') ∧ report.filesChanged = 0
      ∧ ∃ f ∈ walker.walk brokenIndexWorld.tree, report.tells .task f = true
        ∧ f.isChanged brokenIndexWorld.tree w'.tree = true := by
  have hcheck : brokenIndexProject.checkRun brokenIndexWorld (fun walker report t =>
      report.filesChanged == 0 && (walker.walk brokenIndexWorld.tree).any fun f =>
        report.tells .task f && f.isChanged brokenIndexWorld.tree t) = true := by decide +kernel
  obtain ⟨walker, s, report, w', hwalker, hscan, hclear, hspares, hruns, hfile⟩ :=
    exists_of_checkRun hcheck (by decide)
  obtain ⟨hnone, hany⟩ := Bool.and_eq_true_iff.1 hfile
  obtain ⟨f, hf, hboth⟩ := List.any_eq_true.1 hany
  obtain ⟨htold, hchanged⟩ := Bool.and_eq_true_iff.1 hboth
  exact ⟨editsNothing_brokenIndexProject, by decide +kernel, walker, s, report, w', hwalker, hscan,
    hclear, hspares, hruns, by simpa using hnone, f, hf, htold, hchanged⟩

end Project

end Marginalia
