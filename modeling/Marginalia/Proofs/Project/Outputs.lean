import Marginalia.Proofs.Project.Crew
import Marginalia.Proofs.Project.Places
import Marginalia.Proofs.Project.Scan

/-!
What a run writes to besides the sources: the manifest, the index, and the files by way of which the
manifest and the sources are written. If these are kept clear of the sources and of other files, the
files that are worked on have places of their own.
-/

namespace Marginalia

/-- The path of the file leads to a place. -/
def ParsedFile.IsFoundAt (f : ParsedFile) (t : FileTree) (place : Location) : Prop :=
  (t.find f.file.path).toOption.map (·.1) = some place

instance (f : ParsedFile) (t : FileTree) (place : Location) : Decidable (f.IsFoundAt t place) :=
  inferInstanceAs (Decidable (_ = _))

/-! ### Where files of a scan stand -/

section

variable {c : RunConfig} {t : FileTree} {s : Scan} {f g : ParsedFile}

/-- A file that the walk has found below its root stands there. -/
theorem Walker.Stands.standsAt {w : Walker} {root : Location} {names : List String} {name : String}
    (h : w.Stands t f.file root names name) (hread : t.readText f.file.path = .ok f.text) :
    f.StandsAt t (root ++ (names ++ [name])) := by
  refine ⟨h.located, ?_⟩
  obtain ⟨place, m, hfind⟩ := FileTree.readText_eq_ok hread
  obtain ⟨d, hlocate, rfl, hfile⟩ := FileTree.find_eq_ok hfind
  rw [← h.place_of_locate hlocate]
  exact ⟨m, hfile⟩

/-- The place of a hidden file is beside that of its file. -/
theorem Walker.Stands.places_of_hidesAt {w : Walker} {o : Outset} {root : Location}
    {names : List String} {name : String} (h : w.Stands o.tree f.file root names name)
    (hplace : f.StandsAt o.tree (root ++ (names ++ [name]))) {place : Location}
    (hhides : o.HidesAt f place) :
    ∃ front name, f.StandsAt o.tree (front ++ [name])
      ∧ place = front ++ [Path.besideName name] := by
  obtain ⟨hname, hup⟩ := h.named name (by simp)
  obtain ⟨path, d, hpath, hd, rfl⟩ := hhides
  obtain ⟨beside, hbeside, hnames, hend, habsolute⟩ := Path.besidePath?_of_names h.path hup
  obtain rfl := Option.some.inj ((ParsedFile.besidePath?_of_hidden? hpath).symm.trans hbeside)
  obtain ⟨front, hfront, hfront'⟩ := FileTree.places_of_locateLast h.path hnames hup
    (Path.isName_besideName hname).2 (by simp [h.ending]) (by simp [hend]) habsolute
    hplace.located hd
  exact ⟨front, name, hfront ▸ hplace, hfront'⟩

/-- A file of a scan that has units stands where the walk has found it. -/
theorem stands_of_mem_scan (ht : t.IsProper) (h : c.scan t = .ok s) (hf : f ∈ s.files)
    (hunits : f.units ≠ []) : ∃ w root names name, c.walker = .ok w
      ∧ w.Stands t f.file root names name ∧ f.StandsAt t (root ++ (names ++ [name])) := by
  obtain ⟨w, hw, hwalk, hread, hcallers⟩ := of_mem_scan h hf
  obtain ⟨place, n, hfind⟩ := FileTree.readText_eq_ok hread
  obtain ⟨d, hlocate, -⟩ := FileTree.find_eq_ok hfind
  rcases Walker.stands_of_mem_walk ht hwalk hlocate with
    ⟨-, hempty⟩ | ⟨root, names, name, hstands⟩
  · rw [hempty, segment_empty] at hcallers
    exact absurd (List.forall₂_nil_left_iff.1 hcallers) hunits
  · exact ⟨w, root, names, name, hw, hstands, hstands.standsAt hread⟩

/-- A file is found where it stands and nowhere else. -/
theorem ParsedFile.StandsAt.isFoundAt_iff {place q : Location} (h : f.StandsAt t place) :
    f.IsFoundAt t q ↔ place = q := by
  obtain ⟨n, hfile⟩ := h.file
  have hfind := FileTree.find_of_locateLast h.located hfile
  rw [IsFoundAt, hfind]
  exact Option.some_inj

theorem ParsedFile.StandsAt.isFoundAt {place : Location} (h : f.StandsAt t place) :
    f.IsFoundAt t place := h.isFoundAt_iff.2 rfl

/-- No two files of a scan have the same relative path. -/
theorem nodup_relative_scan (ht : t.IsProper) (h : c.scan t = .ok s) :
    (s.files.map fun f => f.file.relative).Nodup := by
  obtain ⟨w, hw, -⟩ := scan_eq_ok h
  have hsublist := (sublist_walk h hw).map SourceFile.relative
  rw [List.map_map] at hsublist
  exact (w.nodup_relative_walk ht).sublist hsublist

/-- Where a file with units stands no other file of the walk is found. -/
theorem file_eq_of_find (ht : t.IsProper) (h : c.scan t = .ok s) (hf : f ∈ s.files)
    (hunits : f.units ≠ []) {place : Location} (hplace : f.StandsAt t place) {w : Walker}
    (hw : c.walker = .ok w) {g : SourceFile} (hg : g ∈ w.walk t) {e : Entry}
    (hfind : t.find g.path = .ok (place, e)) : g = f.file := by
  obtain ⟨w', root, names, name, hw', hstands, hplace'⟩ := stands_of_mem_scan ht h hf hunits
  obtain ⟨w'', hw'', hwalk, -⟩ := of_mem_scan h hf
  obtain rfl := Except.ok.inj (hw.symm.trans hw')
  obtain rfl := Except.ok.inj (hw.symm.trans hw'')
  obtain ⟨d, hlocate, rfl, -⟩ := FileTree.find_eq_ok hfind
  -- the root is a directory, since there is a file with units below it
  rcases Walker.stands_of_mem_walk ht hg hlocate with
    ⟨⟨q, n, content, hroot⟩, -⟩ | ⟨root', names', name', hstands'⟩
  · cases hstands.found.symm.trans hroot
  refine Walker.eq_of_stands ht hg hwalk hstands' hstands ?_
  rw [← hstands'.place_of_locate hlocate]
  exact hplace.isFoundAt_iff.1 hplace'.isFoundAt

/-- Where a file with units stands no other file of the scan is found. -/
theorem eq_of_isFoundAt (ht : t.IsProper) (h : c.scan t = .ok s) (hf : f ∈ s.files)
    (hg : g ∈ s.files) (hunits : f.units ≠ []) {place : Location} (hplace : f.StandsAt t place)
    (hplace' : g.IsFoundAt t place) : g = f := by
  obtain ⟨w, hw, hwalk, -⟩ := of_mem_scan h hg
  unfold ParsedFile.IsFoundAt at hplace'
  cases hfind : t.find g.file.path with
  | error e => simp [hfind, Except.toOption] at hplace'
  | ok found =>
    obtain rfl : found.1 = place := by simpa [hfind, Except.toOption] using hplace'
    have hfile := file_eq_of_find ht h hf hunits hplace hw hwalk hfind
    exact List.inj_on_of_nodup_map (nodup_relative_scan ht h) hg hf
      (congrArg SourceFile.relative hfile)

end

/-! ### What a run writes to -/

namespace Project

/-- The paths of the hidden files by way of which the sources of a scan are written. -/
def hiddenPaths (p : Project) (s : Scan) : List String :=
  (workList s).filterMap fun job => job.1.hidden? p.config.dryRun

/-- The paths of the files by way of which others are written. -/
def temporaries (p : Project) (s : Scan) : List String :=
  besideManifest p.config.manifestPath :: p.hiddenPaths s

/-- A place where a run writes something else than a source: the manifest, a temporary file or the
index. -/
inductive IsOutput (p : Project) (s : Scan) (t : FileTree) (place : Location) : Prop
  | manifest (h : t.LeadsTo p.config.manifestPath place)
  | temporary {path : String} (hpath : path ∈ p.temporaries s) (h : t.LeadsTo path place)
  | index {n : Nat} {c : Content} (h : p.index = .file n) (hn : t.at? place = some (.file n c))

/-- What a run writes besides the sources is clear of them. Where a temporary file is to stand there
is no link, and no file that has another name as well; nor is the index where a source is to be
written by way of a hidden file. The tree is one that file systems have, and the index is open. -/
structure IsClear (p : Project) (s : Scan) (t : FileTree) : Prop where
  proper : t.IsProper
  index_lt : ∀ n, p.index = .file n → n < t.nextSerial
  sources : ∀ f ∈ s.files, f.units ≠ [] → ∀ place, f.IsFoundAt t place → ¬p.IsOutput s t place
  link : ∀ path ∈ p.temporaries s, ∀ place, t.LeadsTo path place →
    ∀ target, t.at? place ≠ some (.link target)
  alone : ∀ path ∈ p.temporaries s, ∀ place, t.LeadsTo path place →
    ∀ n c, t.at? place = some (.file n c) → p.index ≠ .file n →
    ∀ q c', t.at? q = some (.file n c') → q = place
  index : ∀ path ∈ p.hiddenPaths s, ∀ place, t.LeadsTo path place →
    ∀ n c, t.at? place = some (.file n c) → p.index ≠ .file n

/-- Each source has a place for the hidden file by way of which it is written. No source and no link
stands there, no file that has another name as well, and not the index, which is no source either.
The tree is one that file systems have, and the index is open. -/
structure HasRoom (p : Project) (s : Scan) (t : FileTree) : Prop where
  proper : t.IsProper
  index_lt : ∀ n, p.index = .file n → n < t.nextSerial
  sources : ∀ f ∈ s.files, f.units ≠ [] → ∀ place, f.IsFoundAt t place →
    (∀ path ∈ p.hiddenPaths s, ¬t.LeadsTo path place)
      ∧ ∀ n c, t.at? place = some (.file n c) → p.index ≠ .file n
  link : ∀ path ∈ p.hiddenPaths s, ∀ place, t.LeadsTo path place →
    ∀ target, t.at? place ≠ some (.link target)
  alone : ∀ path ∈ p.hiddenPaths s, ∀ place, t.LeadsTo path place →
    ∀ n c, t.at? place = some (.file n c) →
    p.index ≠ .file n ∧ ∀ q c', t.at? q = some (.file n c') → q = place

/-- What is clear of everything else has room. -/
theorem IsClear.hasRoom {p : Project} {s : Scan} {t : FileTree} (h : p.IsClear s t) :
    p.HasRoom s t where
  proper := h.proper
  index_lt := h.index_lt
  sources f hf hunits place hplace :=
    ⟨fun _ hpath hleads => h.sources f hf hunits place hplace
        (.temporary (List.mem_cons_of_mem _ hpath) hleads),
      fun _ _ hn hindex => h.sources f hf hunits place hplace (.index hindex hn)⟩
  link path hpath := h.link path (List.mem_cons_of_mem _ hpath)
  alone path hpath place hleads n c hn :=
    have hindex := h.index path hpath place hleads n c hn
    ⟨hindex, h.alone path (List.mem_cons_of_mem _ hpath) place hleads n c hn hindex⟩

/-- What the run writes besides the sources is apart from all files of a walk. -/
def Spares (p : Project) (s : Scan) (t : FileTree) (w : Walker) : Prop :=
  ∀ f ∈ w.walk t, ∀ place e, t.find f.path = .ok (place, e) → ¬p.IsOutput s t place

/-- What a run of the project sets out with that works on the files of a scan. -/
def outset (p : Project) (s : Scan) (t : FileTree) : Outset :=
  p.workshop.outset t fun f => f ∈ s.files ∧ f.units ≠ []

variable {p : Project} {s : Scan} {t : FileTree} {f : ParsedFile} {place : Location}

theorem exists_hiddenPath (hf : (p.outset s t).worked f) (h : (p.outset s t).HidesAt f place) :
    ∃ path ∈ p.hiddenPaths s, t.LeadsTo path place := by
  obtain ⟨path, d, hpath, hd, rfl⟩ := h
  obtain ⟨number, hjob⟩ := exists_mem_workList hf.1 hf.2
  exact ⟨path, List.mem_filterMap.2 ⟨_, hjob, hpath⟩, FileTree.leadsTo_of_locateLast hd⟩

/-- The place of a hidden file is beside that of its file. -/
theorem places_of_hidesAt (ht : t.IsProper) (h : p.config.scan t = .ok s)
    (hf : (p.outset s t).worked f) (hhides : (p.outset s t).HidesAt f place) :
    ∃ front name, f.StandsAt t (front ++ [name]) ∧ place = front ++ [Path.besideName name] := by
  obtain ⟨w, root, names, name, -, hstands, hplace⟩ := stands_of_mem_scan ht h hf.1 hf.2
  exact hstands.places_of_hidesAt hplace hhides

/-- With room for the hidden files, the files that are worked on have places of their own. -/
theorem HasRoom.workplaces (h : p.HasRoom s t) (hscan : p.config.scan t = .ok s) :
    (p.outset s t).Workplaces where
  stands hf := by
    obtain ⟨-, root, names, name, -, -, hplace⟩ := stands_of_mem_scan h.proper hscan hf.1 hf.2
    exact ⟨_, hplace⟩
  stands_injective hf hg hplace hplace' :=
    eq_of_isFoundAt h.proper hscan hg.1 hf.1 hg.2 hplace'
      (ParsedFile.StandsAt.isFoundAt hplace)
  hides_injective {f g place} hf hg hplace hplace' := by
    -- hidden files at one place are beside files of one name in one directory
    obtain ⟨front, name, hstands, hbeside⟩ := places_of_hidesAt h.proper hscan hf hplace
    obtain ⟨front', name', hstands', hbeside'⟩ := places_of_hidesAt h.proper hscan hg hplace'
    obtain ⟨rfl, hnames⟩ := List.append_inj' (hbeside.symm.trans hbeside') rfl
    obtain rfl := Path.besideName_injective (List.cons.inj hnames).1
    exact eq_of_isFoundAt h.proper hscan hg.1 hf.1 hg.2 hstands' hstands.isFoundAt
  hides_ne_stands {f g place place'} hf hg hplace hplace' := by
    rintro rfl
    obtain ⟨path, hpath, hleads⟩ := exists_hiddenPath hf hplace
    exact (h.sources g hg.1 hg.2 _ (ParsedFile.StandsAt.isFoundAt hplace')).1 path hpath hleads
  stands_index hf hplace hn :=
    (h.sources _ hf.1 hf.2 _ (ParsedFile.StandsAt.isFoundAt hplace)).2 _ _ hn
  hides_link hf hplace := by
    obtain ⟨path, hpath, hleads⟩ := exists_hiddenPath hf hplace
    exact h.link path hpath _ hleads _
  hides_alone hf hplace hn := by
    obtain ⟨path, hpath, hleads⟩ := exists_hiddenPath hf hplace
    exact h.alone path hpath _ hleads _ _ hn
  index_lt hindex := h.index_lt _ hindex

/-- Clear of everything else, the files that are worked on have places of their own. -/
theorem IsClear.workplaces (h : p.IsClear s t) (hscan : p.config.scan t = .ok s) :
    (p.outset s t).Workplaces := h.hasRoom.workplaces hscan

end Project

end Marginalia
