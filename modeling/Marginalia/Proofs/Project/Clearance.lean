import Marginalia.Proofs.Project.Outputs

/-!
Telling that a run is clear of the sources and of other files, by following the paths of what it
writes besides the sources. It can be told where all these paths lead somewhere already.
-/

namespace Marginalia

namespace Project

/-- The file at a place is the index. -/
def isIndex (p : Project) (t : FileTree) (place : Location) : Bool :=
  match p.index, t.at? place with
  | .file n, some (.file m _) => n == m
  | _, _ => false

/-- No path of what is written besides the sources leads to a place. -/
def isApart (p : Project) (s : Scan) (t : FileTree) (place : Location) : Bool :=
  t.allLead (· != place) (p.config.manifestPath :: p.temporaries s) && !p.isIndex t place

/-- No path of what is written besides the sources leads to one of them. -/
def areApart (p : Project) (s : Scan) (t : FileTree) : Bool :=
  s.files.all fun f =>
    match t.find f.file.path with
    | .ok (place, _) => p.isApart s t place
    | .error _ => true

/-- There is the index at a place, or no link and no file with another name as well. -/
def isAlone (p : Project) (t : FileTree) (place : Location) : Bool :=
  p.isIndex t place || t.isAlone place

/-- The run is clear. -/
def checkClear (p : Project) (s : Scan) (t : FileTree) : Bool :=
  decide t.IsProper
    && (match p.index with
      | .file n => decide (n < t.nextSerial)
      | _ => true)
    && p.areApart s t && t.allLead (p.isAlone t) (p.temporaries s)
    && t.allLead (fun place => !p.isIndex t place) (p.hiddenPaths s)

/-- No path of what is written besides the sources leads to a file of the walk. -/
def checkSpares (p : Project) (s : Scan) (t : FileTree) (w : Walker) : Bool :=
  (w.walk t).all fun f =>
    match t.find f.path with
    | .ok (place, _) => p.isApart s t place
    | .error _ => true

variable {p : Project} {s : Scan} {t : FileTree} {place : Location} {n : Nat} {c : Content}

theorem isIndex_iff (hfile : t.at? place = some (.file n c)) :
    p.isIndex t place = true ↔ p.index = .file n := by
  unfold isIndex
  cases p.index <;> simp [hfile]

theorem not_isOutput_of_isApart (h : p.isApart s t place = true) : ¬p.IsOutput s t place := by
  obtain ⟨hlead, hindex⟩ := Bool.and_eq_true_iff.1 h
  rintro (hpath | ⟨hpath, hleads⟩ | ⟨hn, hfile⟩)
  · simpa using FileTree.check_of_allLead hlead List.mem_cons_self hpath
  · simpa using FileTree.check_of_allLead hlead (List.mem_cons_of_mem _ hpath) hleads
  · simp [(isIndex_iff hfile).2 hn] at hindex

theorem not_isOutput_of_areApart (h : p.areApart s t = true) {f : ParsedFile} (hf : f ∈ s.files)
    (hplace : f.IsFoundAt t place) : ¬p.IsOutput s t place := by
  have hapart := List.all_eq_true.1 h f hf
  unfold ParsedFile.IsFoundAt at hplace
  cases hfind : t.find f.file.path with
  | error e => simp [hfind, Except.toOption] at hplace
  | ok found =>
    obtain ⟨q, e⟩ := found
    obtain rfl : q = place := by simpa [hfind, Except.toOption] using hplace
    simp only [hfind] at hapart
    exact not_isOutput_of_isApart hapart

theorem spares_of_checkSpares {w : Walker} (h : p.checkSpares s t w = true) : p.Spares s t w := by
  intro f hf place e hfind
  have hapart := List.all_eq_true.1 h f hf
  rw [hfind] at hapart
  exact not_isOutput_of_isApart hapart

theorem isAlone_of_ne_index (h : p.isAlone t place = true) (hindex : p.isIndex t place = false) :
    t.IsAlone place := by
  rw [isAlone, hindex, Bool.false_or] at h
  exact FileTree.isAlone_of_check h

/-- What has been checked is so. -/
theorem isClear_of_checkClear (h : p.checkClear s t = true) : p.IsClear s t := by
  simp only [checkClear, Bool.and_eq_true] at h
  obtain ⟨⟨⟨⟨hproper, hlt⟩, hsources⟩, halone⟩, hindex⟩ := h
  refine ⟨by simpa using hproper, fun n hn => by simpa [hn] using hlt,
    fun f hf _ place hplace => not_isOutput_of_areApart hsources hf hplace,
    fun path hpath place hleads target hlink => ?_,
    fun path hpath place hleads n c hfile hn => ?_, fun path hpath place hleads n c hfile hn => ?_⟩
  · have hcheck := FileTree.check_of_allLead halone hpath hleads
    have hnot : p.isIndex t place = false := by
      unfold isIndex
      split <;> simp_all
    exact (isAlone_of_ne_index hcheck hnot).1 target hlink
  · have hnot : p.isIndex t place = false :=
      Bool.eq_false_iff.2 fun his => hn ((isIndex_iff hfile).1 his)
    exact (isAlone_of_ne_index (FileTree.check_of_allLead halone hpath hleads) hnot).2 n c hfile
  · have hcheck := FileTree.check_of_allLead hindex hpath hleads
    simp [(isIndex_iff hfile).2 hn] at hcheck

end Project

end Marginalia
