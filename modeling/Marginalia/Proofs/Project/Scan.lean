import Mathlib.Data.List.Forall2
import Marginalia.Project.Scan
import Marginalia.Proofs.CallGraph
import Marginalia.Proofs.Ordered

/-!
What a scan finds. Its files are files of the walk, in the order of their relative paths, and their
units are those of their texts, in the order of their lines. Resolving the calls gives callers to
the units and changes nothing else about them, and every file gets its own units back.
-/

namespace Marginalia

theorem map_eq_map_of_forall₂ {α β γ : Type} {R : α → β → Prop} {f : α → γ} {g : β → γ}
    {as : List α} {bs : List β} (h : List.Forall₂ R as bs) (hR : ∀ {a b}, R a b → g b = f a) :
    bs.map g = as.map f := by
  induction h with
  | nil => rfl
  | cons hab _ ih => rw [List.map_cons, List.map_cons, ih, hR hab]

theorem exists_of_forall₂_right {α β : Type} {R : α → β → Prop} {as : List α} {bs : List β}
    (h : List.Forall₂ R as bs) {b : β} (hb : b ∈ bs) : ∃ a ∈ as, R a b := by
  induction h with
  | nil => exact absurd hb List.not_mem_nil
  | cons hab _ ih =>
    rcases List.mem_cons.1 hb with rfl | hb
    · exact ⟨_, List.mem_cons_self, hab⟩
    · obtain ⟨a, ha, hR⟩ := ih hb
      exact ⟨a, List.mem_cons_of_mem _ ha, hR⟩

/-! ### Units -/

/-- Nothing has been found out about a unit yet. -/
structure CodeUnit.IsFresh (u : CodeUnit) : Prop where
  verdict : u.verdict = none
  annotation : u.annotation = none
  indexId : u.indexId = none

theorem CodeUnit.HasCallers.isFresh {u v : CodeUnit} (h : u.HasCallers v) (hu : u.IsFresh) :
    v.IsFresh := by
  obtain ⟨callers, rfl⟩ := h
  exact ⟨hu.verdict, hu.annotation, hu.indexId⟩

theorem isFresh_of_mem_segment {o : SegmentOptions} {text file : String} {l : Language}
    {u : CodeUnit} (hu : u ∈ segment o text file l) : u.IsFresh := by
  obtain ⟨h, scope, start, body, hunit⟩ := exists_unitAt?_of_mem_segment hu
  rw [unitAt?_eq] at hunit
  split at hunit
  · cases hunit
  · obtain rfl := Option.some.inj hunit
    exact ⟨rfl, rfl, rfl⟩

/-- A file without a relative path has no units. -/
theorem segment_empty (o : SegmentOptions) (text : String) (l : Language) :
    segment o text "" l = [] := by
  refine List.eq_nil_iff_forall_not_mem.2 fun u hu => ?_
  obtain ⟨h, scope, start, body, hunit⟩ := exists_unitAt?_of_mem_segment hu
  have hblank : Text.isBlankString "" = true := rfl
  simp [unitAt?_eq, hblank] at hunit

theorem hasCallers_withCallers (units : List CodeUnit) (calls : List CallEdge) :
    List.Forall₂ CodeUnit.HasCallers units (CallGraph.withCallers units calls) := by
  have h : ∀ x ∈ units.zipIdx, x.1.HasCallers
      (((calls.filter (·.callee == x.2)).filterMap fun e => units[e.caller]?.map (·.id)).foldl
        CodeUnit.addCaller { x.1 with callsIn := [] }) := by
    intro x _
    obtain ⟨callers, h⟩ := CodeUnit.hasCallers_foldl_addCaller
      ((calls.filter (·.callee == x.2)).filterMap fun e => units[e.caller]?.map (·.id))
      { x.1 with callsIn := [] }
    exact ⟨callers, h⟩
  have hall := List.forall₂_map_left_iff.2 (List.forall₂_map_right_iff.2 (List.forall₂_same.2 h))
  rwa [List.zipIdx_map_fst] at hall

/-! ### Files -/

/-- One file is another one with callers on its units. -/
structure ParsedFile.HasCallers (f g : ParsedFile) : Prop where
  file : g.file = f.file
  text : g.text = f.text
  units : List.Forall₂ CodeUnit.HasCallers f.units g.units

/-- Every file is dealt its own units. -/
theorem hasCallers_dealUnits (files : List ParsedFile) {units : List CodeUnit}
    (h : List.Forall₂ CodeUnit.HasCallers (files.flatMap (·.units)) units) :
    List.Forall₂ ParsedFile.HasCallers files (dealUnits files units) := by
  induction files generalizing units with
  | nil => exact .nil
  | cons f files ih =>
    rw [List.flatMap_cons] at h
    have htake := List.forall₂_take f.units.length h
    have hdrop := List.forall₂_drop f.units.length h
    rw [List.take_left] at htake
    rw [List.drop_left] at hdrop
    exact .cons ⟨rfl, rfl, htake⟩ (ih hdrop)

theorem hasCallers_resolveCalls (root : String) (files : List ParsedFile) :
    List.Forall₂ ParsedFile.HasCallers files (resolveCalls root files).1 := by
  unfold resolveCalls
  cases h : CallGraph.build (files.flatMap (·.units)) with
  | error e =>
    exact List.forall₂_same.2 fun f _ =>
      ⟨rfl, rfl, List.forall₂_same.2 fun u _ => ⟨u.callsIn, rfl⟩⟩
  | ok built =>
    refine hasCallers_dealUnits files ?_
    unfold CallGraph.build at h
    cases hg : CallGraph.ofUnits (files.flatMap (·.units)) with
    | error e => rw [hg] at h; cases h
    | ok g =>
      rw [hg] at h
      obtain rfl := Except.ok.inj h
      exact hasCallers_withCallers _ _

theorem parseFile_eq_ok {o : SegmentOptions} {t : FileTree} {f : SourceFile} {g : ParsedFile}
    (h : parseFile o t f = .ok g) :
    g.file = f ∧ t.readText f.path = .ok g.text
      ∧ g.units = segment o g.text f.relative f.language := by
  unfold parseFile at h
  split at h
  · rename_i text hread
    cases h
    exact ⟨rfl, hread, rfl⟩
  · cases h

/-- The files that could be read are files of the list, in its order. -/
theorem map_file_parseFiles (o : SegmentOptions) (t : FileTree) (files : List SourceFile) :
    ((parseFiles o t files).1.map (·.file)).Sublist files := by
  induction files with
  | nil => exact .refl _
  | cons f files ih =>
    cases h : parseFile o t f with
    | error e => simpa [parseFiles, h] using ih.cons f
    | ok g => simpa [parseFiles, h, (parseFile_eq_ok h).1] using ih.cons_cons f

theorem parseFile_of_mem {o : SegmentOptions} {t : FileTree} {files : List SourceFile}
    {g : ParsedFile} (h : g ∈ (parseFiles o t files).1) :
    ∃ f ∈ files, parseFile o t f = .ok g := by
  obtain ⟨r, hr, hg⟩ := List.mem_filterMap.1 h
  obtain ⟨f, hf, rfl⟩ := List.mem_map.1 hr
  refine ⟨f, hf, ?_⟩
  split at hg
  · rename_i hparse
    rw [hparse, Option.some.inj hg]
  · cases hg

/-- What is told of files that could not be read. -/
theorem kind_of_mem_parseFiles {o : SegmentOptions} {t : FileTree} {files : List SourceFile}
    {d : Diagnostic} (h : d ∈ (parseFiles o t files).2) : d.kind = .read := by
  obtain ⟨r, hr, hd⟩ := List.mem_filterMap.1 h
  obtain ⟨f, -, rfl⟩ := List.mem_map.1 hr
  unfold parseFile at hd
  cases hread : t.readText f.path with
  | ok text =>
    rw [hread] at hd
    cases hd
  | error e =>
    rw [hread] at hd
    obtain rfl := Option.some.inj hd
    rfl

/-- What is told of calls that could not be resolved. -/
theorem kind_of_mem_resolveCalls {root : String} {files : List ParsedFile} {d : Diagnostic}
    (h : d ∈ (resolveCalls root files).2.2) : d.kind = .graph := by
  unfold resolveCalls at h
  split at h
  · cases h
  · rw [List.mem_singleton.1 h]
    rfl

/-! ### The walk -/

/-- The files of a walk come in the order of their relative paths. -/
theorem pairwise_walk (w : Walker) (t : FileTree) :
    (w.walk t).Pairwise fun f g => f.relative ≤ g.relative := by
  unfold Walker.walk
  split
  · cases w.listed? w.root "" _ <;> simp
  · refine (pairwise_sortBy (isKeyOrder_string SourceFile.relative) _).imp fun {f g} h => ?_
    exact String.not_lt.1 (of_decide_eq_false h)
  · exact .nil

/-! ### The scan -/

theorem foldl_addFile (files : List SourceFile) (r : RunReport) :
    ∃ scanned languages, files.foldl (fun r f => r.addFile f.language) r
      = { r with filesScanned := scanned, languages := languages } := by
  induction files generalizing r with
  | nil => exact ⟨_, _, rfl⟩
  | cons f files ih =>
    obtain ⟨scanned, languages, h⟩ := ih (r.addFile f.language)
    exact ⟨scanned, languages, h⟩

theorem scan_of_walker {c : RunConfig} {t : FileTree} {w : Walker} (hw : c.walker = .ok w) :
    let (parsed, unread) := parseFiles c.segmentation t (w.walk t)
    let (files, graph, unresolved) := resolveCalls c.root parsed
    c.scan t = .ok ⟨files, graph,
      { (w.walk t).foldl (fun r f => r.addFile f.language) ({} : RunReport) with
        units := (parsed.flatMap (·.units)).length
        diagnostics := unread ++ unresolved }⟩ := by
  simp only [RunConfig.scan, hw]
  rfl

/-- The files of a scan are the ones that could be read, with callers, and its report has only
counted files and units. -/
theorem scan_eq_ok {c : RunConfig} {t : FileTree} {s : Scan} (h : c.scan t = .ok s) :
    ∃ w, c.walker = .ok w
      ∧ List.Forall₂ ParsedFile.HasCallers (parseFiles c.segmentation t (w.walk t)).1 s.files
      ∧ s.report = {
        filesScanned := s.report.filesScanned, units := s.units.length,
        languages := s.report.languages, diagnostics := s.report.diagnostics } := by
  cases hw : c.walker with
  | error e =>
    rw [RunConfig.scan, hw] at h
    cases h
  | ok w =>
    obtain rfl := Except.ok.inj ((scan_of_walker (t := t) hw).symm.trans h)
    obtain ⟨scanned, languages, hreport⟩ := foldl_addFile (w.walk t) {}
    have hcallers := hasCallers_resolveCalls c.root (parseFiles c.segmentation t (w.walk t)).1
    have hcount := congrArg List.sum
      (map_eq_map_of_forall₂ hcallers fun hfg => hfg.units.length_eq.symm)
    rw [← List.length_flatMap, ← List.length_flatMap] at hcount
    refine ⟨w, rfl, hcallers, ?_⟩
    rw [hreport, Scan.units]
    exact congrArg (fun n => RunReport.mk _ _ n _ _ _ _ _ _ _ _ _ _ _ _) hcount.symm

/-! ### The files of a scan -/

section

variable {c : RunConfig} {t : FileTree} {s : Scan}

/-- The files of a scan are files of the walk, in its order. -/
theorem sublist_walk (h : c.scan t = .ok s) {w : Walker} (hw : c.walker = .ok w) :
    (s.files.map (·.file)).Sublist (w.walk t) := by
  obtain ⟨w', hw', hfiles, -⟩ := scan_eq_ok h
  obtain rfl := Except.ok.inj (hw.symm.trans hw')
  rw [map_eq_map_of_forall₂ hfiles fun hfg => hfg.file]
  exact map_file_parseFiles c.segmentation t (w.walk t)

/-- A scan tells only of files that could not be read and of the call graph. -/
theorem kind_of_mem_scan (h : c.scan t = .ok s) {d : Diagnostic} (hd : d ∈ s.report.diagnostics) :
    d.kind = .read ∨ d.kind = .graph := by
  obtain ⟨w, hw, -⟩ := scan_eq_ok h
  obtain rfl := Except.ok.inj ((scan_of_walker (t := t) hw).symm.trans h)
  rcases List.mem_append.1 hd with hd | hd
  · exact .inl (kind_of_mem_parseFiles hd)
  · exact .inr (kind_of_mem_resolveCalls hd)

/-- What a file of a scan is: a file of the walk that has been read and cut, with callers. -/
theorem of_mem_scan (h : c.scan t = .ok s) {f : ParsedFile} (hf : f ∈ s.files) :
    ∃ w, c.walker = .ok w ∧ f.file ∈ w.walk t ∧ t.readText f.file.path = .ok f.text
      ∧ List.Forall₂ CodeUnit.HasCallers
        (segment c.segmentation f.text f.file.relative f.file.language) f.units := by
  obtain ⟨w, hw, hfiles, -⟩ := scan_eq_ok h
  obtain ⟨g, hg, hfg⟩ := exists_of_forall₂_right hfiles hf
  obtain ⟨file, hfile, hparse⟩ := parseFile_of_mem hg
  obtain ⟨rfl, hread, hunits⟩ := parseFile_eq_ok hparse
  refine ⟨w, hw, ?_, ?_, ?_⟩
  · rwa [hfg.file]
  · rw [hfg.file, hfg.text, hread]
  · rw [hfg.file, hfg.text, ← hunits]
    exact hfg.units

theorem isFresh_of_mem_scan (h : c.scan t = .ok s) {f : ParsedFile} (hf : f ∈ s.files) :
    ∀ u ∈ f.units, u.IsFresh := by
  intro u hu
  obtain ⟨-, -, -, -, hunits⟩ := of_mem_scan h hf
  obtain ⟨v, hv, huv⟩ := exists_of_forall₂_right hunits hu
  exact huv.isFresh (isFresh_of_mem_segment hv)

/-- The units of a file come in the order of the lines they start on. -/
theorem pairwise_start_of_mem_scan (h : c.scan t = .ok s) {f : ParsedFile} (hf : f ∈ s.files) :
    f.units.Pairwise fun u v => u.range.start < v.range.start := by
  obtain ⟨-, -, -, -, hunits⟩ := of_mem_scan h hf
  have hstarts : f.units.map (·.range.start)
      = (segment c.segmentation f.text f.file.relative f.file.language).map (·.range.start) :=
    map_eq_map_of_forall₂ hunits fun huv => congrArg LineRange.start huv.range
  have hsegment : (segment c.segmentation f.text f.file.relative f.file.language).Pairwise
      fun u v => u.range.start < v.range.start := pairwise_start_unitsFrom [] 0 0 _
  rw [← List.pairwise_map (R := (· < ·))] at hsegment ⊢
  rwa [hstarts]

/-- The files come in the order of their relative paths. -/
theorem pairwise_relative_scan (h : c.scan t = .ok s) :
    s.files.Pairwise fun f g => f.file.relative ≤ g.file.relative := by
  obtain ⟨w, hw, -⟩ := scan_eq_ok h
  have hwalk := (pairwise_walk w t).sublist (sublist_walk h hw)
  exact (List.pairwise_map (f := ParsedFile.file)).1 hwalk

end

end Marginalia
