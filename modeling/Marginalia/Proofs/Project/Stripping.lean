import Marginalia.Proofs.Project.Completion

/-!
What the report on stripping counts. A file is counted before its text is written, so the files that
are counted are those that have been changed and those that could not be written. The latter stay as
they were, and the report tells of them.
-/

namespace Marginalia

/-! ### Room for hidden files -/

/-- The walk lists files below a directory, and where hidden files are to stand beside them there is
no file of the walk and nothing that is known under another name. -/
structure Walker.HasRoom (w : Walker) (t : FileTree) : Prop where
  proper : t.IsProper
  root : ∃ place, t.find w.root = .ok (place, .directory)
  alone : ∀ f ∈ w.walk t, ∀ path d, besidePath? f.path = some path → t.locateLast path = .ok d →
    t.IsAlone d.place
  apart : ∀ f ∈ w.walk t, ∀ path d, besidePath? f.path = some path → t.locateLast path = .ok d →
    ∀ g ∈ w.walk t, ∀ d', t.locate g.path = .ok d' → d'.place ≠ d.place

/-- The walk lists files below a directory and has room for hidden files. -/
def Walker.checkRoom (w : Walker) (t : FileTree) : Bool :=
  let files := w.walk t
  decide t.IsProper
    && (match t.find w.root with
      | .ok (_, .directory) => true
      | _ => false)
    && files.all fun f =>
      match besidePath? f.path with
      | none => true
      | some path =>
        match t.locateLast path with
        | .error _ => true
        | .ok d => t.isAlone d.place && files.all fun g =>
          match t.locate g.path with
          | .error _ => true
          | .ok d' => d'.place != d.place

/-- What has been checked is so. -/
theorem Walker.hasRoom_of_checkRoom {w : Walker} {t : FileTree} (h : w.checkRoom t = true) :
    w.HasRoom t := by
  simp only [checkRoom, Bool.and_eq_true] at h
  obtain ⟨⟨hproper, hroot⟩, hfiles⟩ := h
  have hbeside : ∀ f ∈ w.walk t, ∀ path d, besidePath? f.path = some path →
      t.locateLast path = .ok d → t.isAlone d.place = true ∧ ∀ g ∈ w.walk t, ∀ d',
        t.locate g.path = .ok d' → d'.place ≠ d.place := by
    intro f hf path d hpath hd
    have hfile := List.all_eq_true.1 hfiles f hf
    simp only [hpath, hd, Bool.and_eq_true] at hfile
    refine ⟨hfile.1, ?_⟩
    intro g hg d' hd'
    have hother := List.all_eq_true.1 hfile.2 g hg
    simpa [hd'] using hother
  refine ⟨by simpa using hproper, ?_, ?_, ?_⟩
  · split at hroot
    · exact ⟨_, by assumption⟩
    · cases hroot
  · intro f hf path d hpath hd
    exact FileTree.isAlone_of_check (hbeside f hf path d hpath hd).1
  · intro f hf path d hpath hd
    exact (hbeside f hf path d hpath hd).2

/-- What stripping sets out with: it works on the files of the walk that can be read. -/
def Walker.outset (w : Walker) (t : FileTree) : Outset where
  tree := t
  index := .null
  dryRun := false
  worked f := f.file ∈ w.walk t ∧ t.readText f.file.path = .ok f.text ∧ f.units = []
  same _ _ := True

namespace Walker

variable {w : Walker} {t : FileTree} {f g : SourceFile}

/-- With a directory as its root, a file of the walk stands below it. -/
theorem HasRoom.stands (h : w.HasRoom t) (hf : f ∈ w.walk t) {d : FileTree.Destination}
    (hlocate : t.locate f.path = .ok d) : ∃ root names name, w.Stands t f root names name := by
  obtain ⟨place, hroot⟩ := h.root
  rcases stands_of_mem_walk h.proper hf hlocate with ⟨⟨q, n, c, hfile⟩, -⟩ | hstands
  · cases hroot.symm.trans hfile
  · exact hstands

/-- No two paths of the walk lead to the same place. -/
theorem HasRoom.eq_of_place (h : w.HasRoom t) (hf : f ∈ w.walk t) (hg : g ∈ w.walk t)
    {d d' : FileTree.Destination} (hd : t.locate f.path = .ok d) (hd' : t.locate g.path = .ok d')
    (hplace : d.place = d'.place) : f = g := by
  obtain ⟨root, names, name, hstands⟩ := h.stands hf hd
  obtain ⟨root', names', name', hstands'⟩ := h.stands hg hd'
  refine eq_of_stands h.proper hf hg hstands hstands' ?_
  rw [← hstands.place_of_locate hd, ← hstands'.place_of_locate hd', hplace]

/-- No two files that can be read stand at the same place. -/
theorem HasRoom.stands_injective (h : w.HasRoom t) {f g : ParsedFile} (hf : (w.outset t).worked f)
    (hg : (w.outset t).worked g) {place : Location} (hplace : f.StandsAt t place)
    (hplace' : g.StandsAt t place) : f = g := by
  obtain ⟨hwalk, hread, hunits⟩ := hf
  obtain ⟨hwalk', hread', hunits'⟩ := hg
  have hfile := h.eq_of_place hwalk hwalk' hplace.locate hplace'.locate rfl
  rw [← hfile] at hread'
  have htext := Except.ok.inj (hread.symm.trans hread')
  cases f
  cases g
  simp_all

/-- A file that can be read stands below the root. -/
theorem HasRoom.exists_stands (h : w.HasRoom t) {f : ParsedFile} (hf : (w.outset t).worked f) :
    ∃ root names name, w.Stands t f.file root names name
      ∧ f.StandsAt t (root ++ (names ++ [name])) := by
  obtain ⟨hwalk, hread, -⟩ := hf
  obtain ⟨place, n, hfind⟩ := FileTree.readText_eq_ok hread
  obtain ⟨d, hlocate, -⟩ := FileTree.find_eq_ok hfind
  obtain ⟨root, names, name, hstands⟩ := h.stands hwalk hlocate
  exact ⟨root, names, name, hstands, hstands.standsAt hread⟩

/-- Files that can be read have places of their own. -/
theorem HasRoom.workplaces (h : w.HasRoom t) : (w.outset t).Workplaces where
  stands hf := by
    obtain ⟨root, names, name, -, hplace⟩ := h.exists_stands hf
    exact ⟨_, hplace⟩
  stands_injective hf hg hplace hplace' := h.stands_injective hf hg hplace hplace'
  hides_injective {f g place} hf hg hplace hplace' := by
    obtain ⟨_, _, _, hstands, hat⟩ := h.exists_stands hf
    obtain ⟨_, _, _, hstands', hat'⟩ := h.exists_stands hg
    -- hidden files at one place are beside files of one name in one directory
    obtain ⟨front, name, hfront, hbeside⟩ := hstands.places_of_hidesAt hat hplace
    obtain ⟨front', name', hfront', hbeside'⟩ := hstands'.places_of_hidesAt hat' hplace'
    obtain ⟨rfl, hnames⟩ := List.append_inj' (hbeside.symm.trans hbeside') rfl
    obtain rfl := Path.besideName_injective (List.cons.inj hnames).1
    exact h.stands_injective hf hg hfront hfront'
  hides_ne_stands {f g place place'} hf hg hplace hplace' := by
    obtain ⟨path, d, hpath, hd, rfl⟩ := hplace
    exact fun heq => h.apart f.file hf.1 path d hpath hd g.file hg.1 _ hplace'.locate heq.symm
  stands_index _ _ _ := by simp [outset]
  hides_link {f place target} hf hplace := by
    obtain ⟨path, d, hpath, hd, rfl⟩ := hplace
    exact (h.alone f.file hf.1 path d hpath hd).1 target
  hides_alone {f place n c} hf hplace hfile := by
    obtain ⟨path, d, hpath, hd, rfl⟩ := hplace
    exact ⟨by simp [outset], (h.alone f.file hf.1 path d hpath hd).2 n c hfile⟩
  index_lt hindex := by cases hindex

/-- A file that can be read is the only one of its name that is worked on. -/
theorem eq_of_worked {file : SourceFile} {text : String} {g : ParsedFile}
    (hg : (w.outset t).worked g) (hread : t.readText file.path = .ok text) (hfile : g.file = file) :
    g = ⟨file, text, []⟩ := by
  obtain ⟨-, hread', hunits⟩ := hg
  obtain ⟨file', text', units⟩ := g
  obtain rfl : file' = file := hfile
  obtain rfl := Except.ok.inj (hread.symm.trans hread')
  obtain rfl : units = [] := hunits
  rfl

/-- Where a file of the walk that cannot be read is found, everything stays. -/
theorem HasRoom.kept (h : w.HasRoom t) (hf : f ∈ w.walk t)
    (hunread : ∀ text, t.readText f.path ≠ .ok text) {t' : FileTree}
    (hintact : (w.outset t).Intact t') {d : FileTree.Destination}
    (hlocate : t.locate f.path = .ok d) {n : Nat} {c : Content}
    (hfile : t.at? d.place = some (.file n c)) :
    t'.at? d.place = some (.file n c) := by
  refine hintact.kept _ n c hfile (by simp [outset]) ?_
  intro g hg
  constructor
  · intro hstands
    obtain rfl := h.eq_of_place hf hg.1 hlocate hstands.locate rfl
    exact hunread g.text hg.2.1
  · rintro ⟨path, d', hpath, hd', hplace⟩
    exact h.apart g.file hg.1 path d' hpath hd' f hf d hlocate hplace.symm

end Walker

/-! ### One file -/

/-- How many blocks there are to take out of a file. -/
def SourceFile.blocks (f : SourceFile) (t : FileTree) : Nat :=
  match t.readText f.path with
  | .ok text => (stripText text f.language).stripped.length
  | .error _ => 0

/-- Putting another text in the place of a file takes it to the stage that the answer tells. -/
theorem Outset.Tracks.commit {o : Outset} {stage : ParsedFile → Stage} {t : FileTree}
    (h : o.Tracks stage t) (hp : o.Workplaces) (hdry : o.dryRun = false) {f : ParsedFile}
    (hf : o.worked f) (hstage : stage f = .before) {text : String} (hsame : o.same f text)
    (hne : text ≠ f.text) :
    o.Tracks (Function.update stage f (.behind text (commit t f.file.path text).1))
      (commit t f.file.path text).2 := by
  have hstill : o.Tracks (Function.update stage f .before) t := by
    rw [← hstage, Function.update_eq_self]
    exact h
  cases hbeside : besidePath? f.file.path with
  | none =>
    simp only [Marginalia.commit, hbeside]
    exact hstill
  | some beside =>
    have hhidden : f.hidden? o.dryRun = some beside := by
      rw [ParsedFile.hidden?, hdry, hbeside]
      rfl
    cases hwrite : t.writeText beside text with
    | error e =>
      simp only [Marginalia.commit, hbeside, FileTree.replaceBy, hwrite]
      exact hstill
    | ok written =>
      have hwritten := h.writeText hp hf hstage hhidden hsame hne hwrite
      obtain ⟨moved, hrename, hmoved⟩ := hwritten.rename hp hf (Function.update_self ..) hhidden
      rw [Function.update_idem] at hmoved
      simp only [Marginalia.commit, hbeside, FileTree.replaceBy, hwrite, hrename]
      exact hmoved

/-! ### All files so far -/

/-- How far stripping has come when some files have been looked at. -/
structure Walker.HasStripped (w : Walker) (t : FileTree) (done : List SourceFile)
    (stage : SourceFile → Stage) (r : RunReport) (t' : FileTree) : Prop where
  tracks : (w.outset t).Tracks (fun g => stage g.file) t'
  rest : ∀ f, f ∉ done → stage f = .before
  settled : ∀ f, stage f = .before ∨ (stage f).isMoved = true
  moved : ∀ f text, stage f = .moved text →
    ∃ before, t.readText f.path = .ok before ∧ text = (stripText before f.language).text
  counted : r.filesChanged = done.countP fun f => (stage f).isMoved || r.tells .write f
  blocks : r.blocksStripped
    = ((done.filter fun f => (stage f).isMoved || r.tells .write f).map (·.blocks t)).sum
  failed : ∀ f, r.tells .write f = true → (stage f).isMoved = false
  told : ∀ d ∈ r.diagnostics, d.kind = .write → ∃ f ∈ done, d.path = f.relative

namespace Walker.HasStripped

variable {w : Walker} {t t' t'' : FileTree} {done : List SourceFile} {stage : SourceFile → Stage}
  {r r' : RunReport} {f : SourceFile}

/-- What the next file comes to is added to what has been done. -/
theorem next (h : w.HasStripped t done stage r t') (hnew : ∀ g ∈ done, g.relative ≠ f.relative)
    (now : Stage) (more : List Diagnostic)
    (htracks : (w.outset t).Tracks (fun g => Function.update stage f now g.file) t'')
    (hsettled : now = .before ∨ now.isMoved = true)
    (hmoved : ∀ text, now = .moved text →
      ∃ before, t.readText f.path = .ok before ∧ text = (stripText before f.language).text)
    (hmore : r'.diagnostics = r.diagnostics ++ more)
    (htold : ∀ d ∈ more, d.kind = .write → d.path = f.relative)
    (hfailed : more.any (·.kind == .write) = true → now.isMoved = false)
    (hcounted : r'.filesChanged
      = r.filesChanged + (now.isMoved || more.any (·.kind == .write)).toNat)
    (hblocks : r'.blocksStripped = r.blocksStripped
      + if now.isMoved || more.any (·.kind == .write) then f.blocks t else 0) :
    w.HasStripped t (done ++ [f]) (Function.update stage f now) r' t'' := by
  have htells : ∀ g : SourceFile, r'.tells .write g
      = (r.tells .write g || (g.relative == f.relative && more.any (·.kind == .write))) := by
    intro g
    rw [RunReport.tells, hmore, List.any_append, RunReport.tells]
    congr 1
    rw [Bool.eq_iff_iff, Bool.and_eq_true, List.any_eq_true, List.any_eq_true]
    constructor
    · rintro ⟨d, hd, hdg⟩
      obtain ⟨hkind, hpath⟩ : d.kind = .write ∧ d.path = g.relative := by simpa using hdg
      exact ⟨by simp [← hpath, htold d hd hkind], d, hd, by simpa using hkind⟩
    · rintro ⟨hsame, d, hd, hkind⟩
      have hkind : d.kind = .write := by simpa using hkind
      have hsame : g.relative = f.relative := by simpa using hsame
      exact ⟨d, hd, by simp [hkind, htold d hd hkind, hsame]⟩
  have hdone : ∀ g ∈ done, ((Function.update stage f now g).isMoved || r'.tells .write g)
      = ((stage g).isMoved || r.tells .write g) := by
    intro g hg
    have hne := hnew g hg
    have hother : g ≠ f := fun heq => hne (congrArg SourceFile.relative heq)
    rw [Function.update_of_ne hother, htells, beq_eq_false_iff_ne.2 hne, Bool.false_and,
      Bool.or_false]
  have hfirst : r.tells .write f = false := by
    rw [RunReport.tells, List.any_eq_false]
    intro d hd hdf
    obtain ⟨hkind, hpath⟩ : d.kind = .write ∧ d.path = f.relative := by simpa using hdf
    obtain ⟨g, hg, hdg⟩ := h.told d hd hkind
    exact hnew g hg (hdg.symm.trans hpath)
  have hlast : ((Function.update stage f now f).isMoved || r'.tells .write f)
      = (now.isMoved || more.any (·.kind == .write)) := by
    rw [Function.update_self, htells, hfirst]
    simp
  refine ⟨htracks, ?_, ?_, ?_, ?_, ?_, ?_, ?_⟩
  · intro g hg
    rw [List.mem_append, List.mem_singleton, not_or] at hg
    rw [Function.update_of_ne hg.2]
    exact h.rest g hg.1
  · intro g
    by_cases hg : g = f
    · rw [hg, Function.update_self]
      exact hsettled
    · rw [Function.update_of_ne hg]
      exact h.settled g
  · intro g text hgtext
    by_cases hg : g = f
    · subst hg
      rw [Function.update_self] at hgtext
      exact hmoved text hgtext
    · rw [Function.update_of_ne hg] at hgtext
      exact h.moved g text hgtext
  · rw [hcounted, h.counted, List.countP_append, List.countP_singleton, hlast,
      List.countP_congr fun g hg => by rw [← hdone g hg]]
    cases now.isMoved || more.any (·.kind == .write) <;> rfl
  · rw [hblocks, h.blocks, List.filter_append, List.map_append, List.sum_append,
      List.filter_congr fun g hg => (hdone g hg).symm, List.filter_singleton, hlast]
    cases now.isMoved || more.any (·.kind == .write) <;> simp
  · intro g hg
    rw [htells] at hg
    by_cases hgf : g = f
    · subst hgf
      rw [Function.update_self]
      rw [hfirst] at hg
      exact hfailed (by simpa using hg)
    · rw [Function.update_of_ne hgf]
      rcases Bool.or_eq_true_iff.1 hg with hg | hg
      · exact h.failed g hg
      · obtain ⟨hsame, -⟩ : g.relative = f.relative ∧ _ := by simpa using hg
        rw [h.rest g fun hmem => hnew g hmem hsame]
        rfl
  · intro d hd hkind
    rw [hmore] at hd
    rcases List.mem_append.1 hd with hd | hd
    · obtain ⟨g, hg, hdg⟩ := h.told d hd hkind
      exact ⟨g, List.mem_append_left _ hg, hdg⟩
    · exact ⟨f, List.mem_append_right _ (List.mem_singleton.2 rfl), htold d hd hkind⟩

/-- A file that can be read now has held the same text in the beginning. -/
theorem readText (h : w.HasStripped t done stage r t') (hroom : w.HasRoom t) (hf : f ∈ w.walk t)
    (hstage : stage f = .before) {text : String} (hread : t'.readText f.path = .ok text) :
    t.readText f.path = .ok text := by
  cases hbefore : t.readText f.path with
  | ok text' =>
    have hsame := h.tracks.readText hroom.workplaces (f := ⟨f, text', []⟩) ⟨hf, hbefore, rfl⟩ hstage
    rw [← hread, hsame]
  | error e =>
    obtain ⟨place, n, hfind⟩ := FileTree.readText_eq_ok hread
    obtain ⟨d, hlocate, rfl, hfile⟩ := FileTree.find_eq_ok hfind
    have hlocate' : t.locate f.path = .ok d := FileTree.go_mono h.tracks.intact.ways.back hlocate
    obtain ⟨root, names, name, hstands⟩ := hroom.stands hf hlocate'
    obtain ⟨m, c, hthere⟩ := hstands.file
    rw [← hstands.place_of_locate hlocate'] at hthere
    have hkept := hroom.kept hf (by simp [hbefore]) h.tracks.intact hlocate' hthere
    obtain ⟨rfl, rfl⟩ := Entry.file.inj (Option.some.inj (hkept.symm.trans hfile))
    rw [hstands.place_of_locate hlocate'] at hthere
    rw [← hbefore, FileTree.readText_of_locateLast hstands.located hthere]

/-- A file that is passed over counts for nothing. -/
theorem pass (h : w.HasStripped t done stage r t') (hnew : ∀ g ∈ done, g.relative ≠ f.relative)
    (more : List Diagnostic) (hmore : r'.diagnostics = r.diagnostics ++ more)
    (hkinds : ∀ d ∈ more, d.kind ≠ .write) (hcounted : r'.filesChanged = r.filesChanged)
    (hblocks : r'.blocksStripped = r.blocksStripped) :
    w.HasStripped t (done ++ [f]) stage r' t' := by
  have hbefore : stage f = .before := h.rest f fun hmem => hnew f hmem rfl
  have hsame : Function.update stage f .before = stage := by
    rw [← hbefore, Function.update_eq_self]
  have hnone : more.any (·.kind == .write) = false := by
    rw [List.any_eq_false]
    intro d hd
    simpa using hkinds d hd
  have htracks : (w.outset t).Tracks (fun g => Function.update stage f .before g.file) t' := by
    rw [hsame]
    exact h.tracks
  have hnext := h.next hnew .before more htracks (.inl rfl) (fun text htext => by cases htext) hmore
    (fun d hd hkind => absurd hkind (hkinds d hd)) (fun _ => rfl)
    (by rw [hnone]; exact hcounted) (by rw [hnone]; exact hblocks)
  rwa [hsame] at hnext

/-- Whatever stripping comes to with the next file, it is added to what has been done. -/
theorem stripOne (h : w.HasStripped t done stage r t') (hroom : w.HasRoom t) (hf : f ∈ w.walk t)
    (hnew : ∀ g ∈ done, g.relative ≠ f.relative) {p : Project} (hdry : p.config.dryRun = false)
    (world : World) (hworld : world.tree = t') :
    ∃ stage', w.HasStripped t (done ++ [f]) stage' (p.stripOne r f world).1
      (p.stripOne r f world).2.tree := by
  subst hworld
  have hbefore : stage f = .before := h.rest f fun hmem => hnew f hmem rfl
  unfold Project.stripOne
  split
  · exact ⟨stage, h.pass hnew [] (List.append_nil _).symm (by simp) rfl rfl⟩
  cases hread : world.tree.readText f.path with
  | error e => exact ⟨stage, h.pass hnew _ rfl (by simp [Diagnostic.ofFile]) rfl rfl⟩
  | ok text =>
    have hstart := h.readText hroom hf hbefore hread
    cases hchanged : (stripText text f.language).changed with
    | false =>
      simp only [commitOutcome, hchanged, Bool.false_and]
      exact ⟨stage, h.pass hnew [] (List.append_nil _).symm (by simp) rfl rfl⟩
    | true =>
      have hne : (stripText text f.language).text ≠ text := by simpa [stripText] using hchanged
      have hblocks : f.blocks t = (stripText text f.language).stripped.length := by
        rw [SourceFile.blocks, hstart]
      have hworked : (w.outset t).worked ⟨f, text, []⟩ := ⟨hf, hstart, rfl⟩
      have htracks := h.tracks.commit hroom.workplaces rfl hworked hbefore trivial hne
      simp only [commitOutcome, hchanged, hdry]
      cases hcommit : commit world.tree f.path (stripText text f.language).text with
      | mk done tree =>
      simp only [hcommit] at htracks
      have htracks' : (w.outset t).Tracks
          (fun g => Function.update stage f (.behind (stripText text f.language).text done) g.file)
          tree := by
        refine htracks.congr fun g hg => ?_
        by_cases hgf : g.file = f
        · obtain rfl := eq_of_worked hg hstart hgf
          rw [Function.update_self, Function.update_self]
        · rw [Function.update_of_ne hgf, Function.update_of_ne]
          rintro rfl
          exact hgf rfl
      cases done with
      | ok done =>
        refine ⟨_, h.next hnew _ [] htracks' (.inr rfl) ?_ (List.append_nil _).symm
          (by simp) (by simp) rfl ?_⟩
        · rintro text' htext'
          exact ⟨text, hstart, (Stage.moved.inj htext').symm⟩
        · rw [hblocks]
          rfl
      | error e =>
        refine ⟨_, h.next hnew _ _ htracks' (.inl rfl) (fun _ htext => by cases htext) rfl ?_
          (fun _ => rfl) rfl ?_⟩
        · rintro d hd -
          rw [List.mem_singleton.1 hd]
          rfl
        · rw [hblocks]
          rfl

/-- Where a file was found something else stands exactly if its text has been moved there. -/
theorem isChanged_eq (h : w.HasStripped t done stage r t') (hroom : w.HasRoom t)
    (hf : f ∈ w.walk t) : f.isChanged t t' = (stage f).isMoved := by
  cases hread : t.readText f.path with
  | ok text =>
    have hworked : (w.outset t).worked ⟨f, text, []⟩ := ⟨hf, hread, rfl⟩
    obtain ⟨place, hplace⟩ := hroom.workplaces.stands hworked
    exact (h.tracks.shows _ hworked).isChanged_eq hplace (h.settled f) fun _ _ hat => hat
  | error e =>
    have hstage : (stage f).isMoved = false := by
      cases hstage : stage f with
      | moved text =>
        obtain ⟨before, hbefore, -⟩ := h.moved f text hstage
        cases hread.symm.trans hbefore
      | _ => rfl
    rw [hstage]
    unfold SourceFile.isChanged
    split
    · rename_i place n c hfind
      obtain ⟨d, hlocate, rfl, hfile⟩ := FileTree.find_eq_ok hfind
      have hkept := hroom.kept hf (by simp [hread]) h.tracks.intact hlocate hfile
      simp [FileTree.content?_of_at? hkept]
    · rfl

/-- Where a text has been moved the file holds what was left of its own text. -/
theorem content_of_moved (h : w.HasStripped t done stage r t') (hroom : w.HasRoom t)
    (hf : f ∈ w.walk t) (hmoved : (stage f).isMoved = true) :
    ∃ place n text, t.find f.path = .ok (place, .file n (.text text))
      ∧ t'.content? place = some (.text (stripText text f.language).text) := by
  cases hstage : stage f with
  | moved text' =>
    obtain ⟨text, hread, rfl⟩ := h.moved f text' hstage
    have hworked : (w.outset t).worked ⟨f, text, []⟩ := ⟨hf, hread, rfl⟩
    obtain ⟨place, hplace⟩ := hroom.workplaces.stands hworked
    obtain ⟨n, hfile⟩ := hplace.file
    have hshows := h.tracks.shows _ hworked
    simp only [hstage] at hshows
    obtain ⟨m, htext, -⟩ := hshows.2.1 place hplace
    exact ⟨place, n, text, FileTree.find_of_locateLast hplace.located hfile,
      FileTree.content?_of_at? htext⟩
  | _ =>
    rw [hstage] at hmoved
    cases hmoved

/-- In the beginning nothing has been done. -/
theorem start (hroom : w.HasRoom t) : w.HasStripped t [] (fun _ => .before) {} t := by
  have hintact : (w.outset t).Intact t :=
    Outset.intact_self hroom.proper.numbered fun _ _ => trivial
  refine ⟨Outset.tracks_start hintact, fun _ _ => rfl, fun _ => .inl rfl, ?_, rfl, rfl,
    fun _ _ => rfl, ?_⟩
  · intro f text htext
    cases htext
  · intro d hd
    cases hd

/-- All files are stripped one after the other. -/
theorem steps {p : Project} (hdry : p.config.dryRun = false) (hroom : w.HasRoom t)
    {files : List SourceFile} {x y : RunReport × World} (hsteps : p.StripSteps files x y)
    {done : List SourceFile} {stage : SourceFile → Stage}
    (h : w.HasStripped t done stage x.1 x.2.tree) (hfiles : ∀ f ∈ files, f ∈ w.walk t)
    (hnodup : ((done ++ files).map (·.relative)).Nodup) :
    ∃ stage', w.HasStripped t (done ++ files) stage' y.1 y.2.tree := by
  induction hsteps generalizing done stage with
  | none =>
    rw [List.append_nil]
    exact ⟨stage, h⟩
  | @one f rest r world y stop _ ih =>
    have hnew : ∀ g ∈ done, g.relative ≠ f.relative := by
      intro g hg heq
      rw [List.map_append, List.map_cons] at hnodup
      refine (List.nodup_append.1 hnodup).2.2 _ (List.mem_map_of_mem hg) _ List.mem_cons_self heq
    obtain ⟨stage', hnext⟩ := h.stripOne hroom (hfiles f List.mem_cons_self) hnew hdry
      { world with cancelled := stop } rfl
    rw [List.append_cons] at hnodup ⊢
    exact ih hnext (fun g hg => hfiles g (List.mem_cons_of_mem _ hg)) hnodup

end Walker.HasStripped

/-! ### The report -/

namespace Project

theorem stripSteps_foldl (p : Project) (files : List SourceFile) (x : RunReport × World) :
    p.StripSteps files x (files.foldl (fun (r, w) f => p.stripOne r f w) x) := by
  induction files generalizing x with
  | nil => exact .none
  | cons f rest ih =>
    obtain ⟨r, w⟩ := x
    exact .one w.cancelled (ih (p.stripOne r f w))

/-- Stripping without a request on the way is one way to strip. -/
theorem stripsTo_strip (p : Project) (w : World) : p.StripsTo w (p.strip w) := by
  unfold strip
  cases hwalker : p.config.walker with
  | error e => exact .unwalked hwalker
  | ok walker => exact .stripped hwalker (p.stripSteps_foldl (walker.walk w.tree) ({}, w))

/-- The report on stripping counts the files that have been changed and those that could not be
written, with their blocks. The former hold what was left of their texts without the blocks, and the
latter stay as they were. -/
theorem strip_counts {p : Project} (hdry : p.config.dryRun = false) {walker : Walker}
    (hwalker : p.config.walker = .ok walker) {w w' : World} (hroom : walker.HasRoom w.tree)
    {report : RunReport} (h : p.StripsTo w (.ok report, w')) :
    report.filesChanged = (walker.walk w.tree).countP (·.isChanged w.tree w'.tree)
        + (walker.walk w.tree).countP (report.tells .write)
      ∧ report.blocksStripped = (((walker.walk w.tree).filter fun f =>
        f.isChanged w.tree w'.tree || report.tells .write f).map (·.blocks w.tree)).sum
      ∧ (∀ f ∈ walker.walk w.tree, f.isChanged w.tree w'.tree = true →
        ∃ place n text, w.tree.find f.path = .ok (place, .file n (.text text))
          ∧ w'.tree.content? place = some (.text (stripText text f.language).text))
      ∧ ∀ f ∈ walker.walk w.tree, report.tells .write f = true →
        f.isChanged w.tree w'.tree = false := by
  generalize hx : (Except.ok report, w') = x at h
  cases h with
  | unwalked unread => cases hwalker.symm.trans unread
  | @stripped walker' report' w'' read steps =>
    obtain rfl := Except.ok.inj (hwalker.symm.trans read)
    obtain ⟨hreport, rfl⟩ := Prod.mk.inj hx
    obtain rfl := Except.ok.inj hreport
    obtain ⟨stage, hstripped⟩ := (Walker.HasStripped.start hroom).steps hdry hroom steps
      (fun f hf => hf) (walker.nodup_relative_walk hroom.proper)
    rw [List.nil_append] at hstripped
    have hchanged := fun f hf => hstripped.isChanged_eq hroom (f := f) hf
    refine ⟨?_, ?_, ?_, ?_⟩
    · rw [hstripped.counted, List.countP_eq_countP_filter_add _ _ fun f => (stage f).isMoved,
        List.countP_filter, List.countP_filter]
      congr 1
      · refine List.countP_congr fun f hf => ?_
        rw [hchanged f hf]
        cases (stage f).isMoved <;> simp
      · refine List.countP_congr fun f hf => ?_
        cases htells : report.tells .write f with
        | false => cases (stage f).isMoved <;> simp
        | true => simp [hstripped.failed f htells]
    · rw [hstripped.blocks]
      congr 2
      exact List.filter_congr fun f hf => by rw [hchanged f hf]
    · intro f hf hmoved
      rw [hchanged f hf] at hmoved
      exact hstripped.content_of_moved hroom hf hmoved
    · intro f hf htells
      rw [hchanged f hf]
      exact hstripped.failed f htells

/-- The world of two sources with a stray end of a block. A directory stands where the hidden file
beside one of them is to be. -/
def blockedWorld : World := plainProject.startWorld {
  entries := [(["p"], .directory), (["p", "a.py"], .file 0 (.text strayEndText)),
    (["p", ".a.py.madl.tmp"], .directory), (["p", "b.py"], .file 1 (.text strayEndText))]
  nextSerial := 2
  workingDirectory := [] }

/-- Stripping that is not interrupted has room, and a check of its report and of what it leaves
behind holds. -/
def checkStrip (p : Project) (w : World) (check : Walker → RunReport → FileTree → Bool) : Bool :=
  match p.config.walker, p.strip w with
  | .ok walker, (.ok report, w') => walker.checkRoom w.tree && check walker report w'.tree
  | _, _ => false

theorem exists_of_checkStrip {p : Project} {w : World}
    {check : Walker → RunReport → FileTree → Bool} (h : p.checkStrip w check = true) :
    ∃ walker report w', p.config.walker = .ok walker ∧ walker.HasRoom w.tree
      ∧ p.StripsTo w (.ok report, w') ∧ check walker report w'.tree = true := by
  have hstrips := p.stripsTo_strip w
  unfold checkStrip at h
  split at h
  · rename_i walker report w' hwalker hstrip
    obtain ⟨hroom, hcheck⟩ := Bool.and_eq_true_iff.1 h
    rw [hstrip] at hstrips
    exact ⟨walker, report, w', hwalker, Walker.hasRoom_of_checkRoom hroom, hstrips, hcheck⟩
  · cases h

/-- Stripping counts two files, of which it changes one. -/
theorem exists_strip_blockedWorld : ∃ walker report w',
    plainProject.config.walker = .ok walker ∧ walker.HasRoom blockedWorld.tree
      ∧ plainProject.StripsTo blockedWorld (.ok report, w')
      ∧ report.filesChanged = 2 ∧ report.blocksStripped = 2
      ∧ (walker.walk blockedWorld.tree).countP (·.isChanged blockedWorld.tree w'.tree) = 1
      ∧ (((walker.walk blockedWorld.tree).filter (·.isChanged blockedWorld.tree w'.tree)).map
        (·.blocks blockedWorld.tree)).sum = 1 := by
  have hstrip : plainProject.checkStrip blockedWorld (fun walker report t =>
      report.filesChanged == 2 && report.blocksStripped == 2
        && (walker.walk blockedWorld.tree).countP (·.isChanged blockedWorld.tree t) == 1
        && (((walker.walk blockedWorld.tree).filter (·.isChanged blockedWorld.tree t)).map
          (·.blocks blockedWorld.tree)).sum == 1) = true := by decide +kernel
  obtain ⟨walker, report, w', hwalker, hroom, hstrips, hcheck⟩ := exists_of_checkStrip hstrip
  simp only [Bool.and_eq_true, beq_iff_eq] at hcheck
  obtain ⟨⟨⟨hfiles, hblocks⟩, hcount⟩, hsum⟩ := hcheck
  exact ⟨walker, report, w', hwalker, hroom, hstrips, hfiles, hblocks, hcount, hsum⟩

theorem strip_counts_blocked : ∃ walker report w',
    plainProject.config.walker = .ok walker ∧ walker.HasRoom blockedWorld.tree
      ∧ plainProject.StripsTo blockedWorld (.ok report, w')
      ∧ (walker.walk blockedWorld.tree).countP (report.tells .write) = 1
      ∧ report.filesChanged
        = (walker.walk blockedWorld.tree).countP (·.isChanged blockedWorld.tree w'.tree) + 1
      ∧ report.blocksStripped = (((walker.walk blockedWorld.tree).filter fun f =>
        f.isChanged blockedWorld.tree w'.tree || report.tells .write f).map
          (·.blocks blockedWorld.tree)).sum := by
  obtain ⟨walker, report, w', hwalker, hroom, hstrips, htwo, -, hone, -⟩ :=
    exists_strip_blockedWorld
  obtain ⟨hfiles, hblocks, -⟩ := strip_counts rfl hwalker hroom hstrips
  have hfailed : (walker.walk blockedWorld.tree).countP (report.tells .write) = 1 := by omega
  exact ⟨walker, report, w', hwalker, hroom, hstrips, hfailed, by omega, hblocks⟩

/-- Stripping may count files that it could not write, and their blocks. -/
theorem strip_counts_unwritten : plainProject.config.check blockedWorld.tree = .ok ()
    ∧ ∃ walker report w', plainProject.config.walker = .ok walker
      ∧ plainProject.StripsTo blockedWorld (.ok report, w')
      ∧ report.filesChanged
        ≠ (walker.walk blockedWorld.tree).countP (·.isChanged blockedWorld.tree w'.tree)
      ∧ report.blocksStripped ≠ (((walker.walk blockedWorld.tree).filter
        (·.isChanged blockedWorld.tree w'.tree)).map (·.blocks blockedWorld.tree)).sum := by
  obtain ⟨walker, report, w', hwalker, -, hstrips, hfiles, hblocks, hcount, hsum⟩ :=
    exists_strip_blockedWorld
  exact ⟨by decide +kernel, walker, report, w', hwalker, hstrips, by omega, by omega⟩

end Project

end Marginalia
