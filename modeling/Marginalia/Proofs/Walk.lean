import Mathlib.Data.List.Nodup
import Marginalia.Proofs.Ordered
import Marginalia.Proofs.Path
import Marginalia.Proofs.Tree.Ways
import Marginalia.Walk

/-!
The files of a walk. Their paths lead to files, without a link at the end, and no two of them to the
same one.
-/

namespace Marginalia

namespace FileTree

/-- A tree as file systems have it: there is one entry at a place, every entry has names that a path
can lead along, and files have been numbered in turn. -/
structure IsProper (t : FileTree) : Prop where
  distinct : (t.entries.map (·.1)).Nodup
  placed : ∀ x ∈ t.entries, x.1 ≠ []
  named : ∀ x ∈ t.entries, ∀ name ∈ x.1, Path.IsName name ∧ name ≠ ".."
  numbered : ∀ place n c, t.at? place = some (.file n c) → n < t.nextSerial

variable {t : FileTree}

theorem lookup_of_mem {es : List (Location × Entry)} (hdistinct : (es.map (·.1)).Nodup)
    {place : Location} {e : Entry} (h : (place, e) ∈ es) : es.lookup place = some e := by
  induction es with
  | nil => exact absurd h List.not_mem_nil
  | cons x es ih =>
    obtain ⟨hx, hes⟩ := List.nodup_cons.1 (List.map_cons ▸ hdistinct)
    rcases List.mem_cons.1 h with rfl | h
    · exact List.lookup_cons_self
    · have hne : place ≠ x.1 := by
        rintro rfl
        exact hx (List.mem_map.2 ⟨_, h, rfl⟩)
      rw [List.lookup_cons, beq_false_of_ne hne]
      exact ih hes h

/-- The entries have all numbers below a number. -/
def numbersBelow (t : FileTree) (bound : Nat) : Bool :=
  t.entries.all fun x =>
    match x.2 with
    | .file n _ => n < bound
    | _ => true

theorem lt_of_numbersBelow {bound : Nat} (h : t.numbersBelow bound = true) {place : Location}
    {n : Nat} {c : Content} (hfile : t.at? place = some (.file n c)) : n < bound := by
  have hmem := mem_of_at? (place_ne_nil (t := t) (by simp [hfile])) hfile
  simpa using List.all_eq_true.1 h _ hmem

theorem IsProper.at?_of_mem (h : t.IsProper) {place : Location} {e : Entry}
    (hmem : (place, e) ∈ t.entries) : t.at? place = some e := by
  rw [at?, if_neg (h.placed _ hmem)]
  exact lookup_of_mem h.distinct hmem

/-- A file that stands at the place of a directory or below it has a name there. -/
theorem IsProper.exists_below (h : t.IsProper) {root names : Location}
    (hroot : t.at? root = some .directory) {n : Nat} {c : Content}
    (hmem : (root ++ names, .file n c) ∈ t.entries) : ∃ dirs name, names = dirs ++ [name] := by
  have hne : names ≠ [] := by
    rintro rfl
    have hfile := h.at?_of_mem hmem
    rw [List.append_nil, hroot] at hfile
    cases hfile
  exact ⟨_, _, (List.dropLast_concat_getLast hne).symm⟩

instance (t : FileTree) : Decidable t.IsProper :=
  decidable_of_iff ((t.entries.map (·.1)).Nodup ∧ (∀ x ∈ t.entries, x.1 ≠ []
      ∧ ∀ name ∈ x.1, Path.IsName name ∧ name ≠ "..") ∧ t.numbersBelow t.nextSerial = true) <| by
    constructor
    · rintro ⟨hdistinct, hplaces, hnumbers⟩
      exact ⟨hdistinct, fun x hx => (hplaces x hx).1, fun x hx => (hplaces x hx).2,
        fun place n c => lt_of_numbersBelow hnumbers⟩
    · rintro ⟨hdistinct, hplaced, hnamed, hnumbered⟩
      refine ⟨hdistinct, fun x hx => ⟨hplaced x hx, hnamed x hx⟩, List.all_eq_true.2 ?_⟩
      rintro ⟨place, e⟩ hx
      cases e with
      | file n c =>
        have ht : t.IsProper := ⟨hdistinct, hplaced, hnamed, hnumbered⟩
        simpa using hnumbered place n c (ht.at?_of_mem hx)
      | directory => rfl
      | link target => rfl

/-- A path whose text can be read leads to a file with the text. -/
theorem readText_eq_ok {path text : String} (h : t.readText path = .ok text) :
    ∃ place n, t.find path = .ok (place, .file n (.text text)) := by
  unfold readText stat at h
  cases hfind : t.find path with
  | error err => simp [hfind, Except.map, bind, Except.bind] at h
  | ok found =>
    obtain ⟨place, e⟩ := found
    simp only [hfind, Except.map, bind, Except.bind] at h
    split at h
    · obtain rfl := Except.ok.inj h
      exact ⟨place, _, rfl⟩
    · cases h
    · cases h

end FileTree

namespace Walker

variable {w : Walker} {t : FileTree}

/-- A file that the walk visits is an entry below the root, with directories on the way to it. -/
theorem visit?_eq_some {root place : Location} {e : Entry} {f : SourceFile}
    (h : w.visit? t root place e = some f) :
    ∃ n c names, e = .file n c ∧ place = root ++ names ∧ f.relative = "/".intercalate names
      ∧ f.path = Path.join w.root f.relative
      ∧ ∀ i, i + 1 < names.length → t.at? (root ++ names.take (i + 1)) = some .directory := by
  cases e with
  | directory => cases h
  | link target => cases h
  | file n c =>
    unfold visit? at h
    simp only at h
    split at h
    · rename_i hreached
      obtain ⟨hfront, hreaches⟩ : root.isPrefixOf place = true
        ∧ w.reaches t root (place.drop root.length) = true := by simpa using hreached
      obtain ⟨names, rfl⟩ := List.isPrefixOf_iff_prefix.1 hfront
      rw [List.drop_left] at h hreaches
      unfold listed? at h
      split at h
      · cases h
      · obtain ⟨l, -, rfl⟩ := Option.map_eq_some_iff.1 h
        refine ⟨n, c, names, rfl, rfl, rfl, rfl, fun i hi => ?_⟩
        have hi' := List.all_eq_true.1 hreaches i (List.mem_range.2 (by omega))
        simp only [hi, decide_true, Bool.not_true, Bool.false_or, Bool.and_eq_true] at hi'
        simpa using hi'.1
    · cases h

/-- A walk comes to its root only, if that is a file, or to entries below it. -/
theorem of_mem_walk {f : SourceFile} (h : f ∈ w.walk t) :
    (∃ place n c, t.find w.root = .ok (place, .file n c)) ∧ f.relative = ""
      ∨ ∃ root place e, t.find w.root = .ok (root, .directory)
        ∧ (place, e) ∈ t.entries ∧ w.visit? t root place e = some f := by
  unfold walk at h
  split at h
  · left
    rename_i hroot
    refine ⟨⟨_, _, _, hroot⟩, ?_⟩
    unfold listed? at h
    split at h
    · exact absurd h List.not_mem_nil
    · obtain ⟨l, -, rfl⟩ := Option.map_eq_some_iff.1 (Option.mem_toList.1 h)
      rfl
  · right
    rename_i root hroot
    obtain ⟨x, hx, hvisit⟩ := List.mem_filterMap.1 ((sortBy_perm _ _).mem_iff.1 h)
    exact ⟨root, x.1, x.2, hroot, hx, hvisit⟩
  · exact absurd h List.not_mem_nil

/-- From a root that is a directory, names lead on from its place. -/
theorem goFrom_root {root : Location} (hroot : t.find w.root = .ok (root, .directory)) :
    w.root ≠ "" ∧ ∃ links, ∀ follow more e, more ≠ [] →
      t.goFrom follow FileTree.maxLinks (t.startOf w.root) (Path.names w.root ++ more) e
        = t.goFrom follow links root more e := by
  obtain ⟨d, hlocate, rfl, hd⟩ := FileTree.find_eq_ok hroot
  have hcheck := FileTree.checkPath_of_go hlocate
  rw [FileTree.locate, FileTree.go_of_checkPath hcheck] at hlocate
  have hdots (follow) : t.goFrom follow FileTree.maxLinks (t.startOf w.root) (Path.names w.root)
      .dots = .ok ⟨d.place, .dots⟩ := FileTree.goFrom_dots hlocate hd
  refine ⟨?_, ?_⟩
  · rintro hempty
    rw [hempty] at hcheck
    cases hcheck
  · rcases FileTree.goFrom_append t FileTree.maxLinks (t.startOf w.root) (Path.names w.root) with
      ⟨err, hfront⟩ | ⟨place, links, hfront⟩
    · have herror := hfront (fun _ => true) [] .dots (.inr rfl)
      rw [List.append_nil, hdots] at herror
      cases herror
    · have hplace := hfront (fun _ => true) [] .dots (.inr rfl)
      rw [List.append_nil, hdots, FileTree.goFrom_nil] at hplace
      obtain rfl : d.place = place := congrArg FileTree.Destination.place (Except.ok.inj hplace)
      exact ⟨links, fun follow more e hmore => hfront follow more e (.inl hmore)⟩

/-- Where a file of a walk stands, and that its path leads there and to no link. -/
structure Stands (w : Walker) (t : FileTree) (f : SourceFile) (root : Location)
    (names : List String) (name : String) : Prop where
  relative : f.relative = "/".intercalate (names ++ [name])
  named : ∀ n ∈ names ++ [name], Path.IsName n ∧ n ≠ ".."
  path : Path.names f.path = Path.names w.root ++ names ++ [name]
  ending : Path.ending f.path = .name
  found : t.find w.root = .ok (root, .directory)
  located : t.locateLast f.path = .ok ⟨root ++ (names ++ [name]), .name⟩
  file : ∃ n c, t.at? (root ++ (names ++ [name])) = some (.file n c)

/-- A file of a walk whose path leads somewhere stands where its path says. -/
theorem stands_of_mem_walk (ht : t.IsProper) {f : SourceFile} (h : f ∈ w.walk t)
    {d : FileTree.Destination} (hlocate : t.locate f.path = .ok d) :
    (∃ place n c, t.find w.root = .ok (place, .file n c)) ∧ f.relative = ""
      ∨ ∃ root names name, w.Stands t f root names name := by
  refine (of_mem_walk h).imp id ?_
  rintro ⟨root, place, e, hroot, hmem, hvisit⟩
  obtain ⟨n, c, names, rfl, rfl, hrelative, hpath, hfronts⟩ := visit?_eq_some hvisit
  have hfile := ht.at?_of_mem hmem
  obtain ⟨-, -, -, hdirectory⟩ := FileTree.find_eq_ok hroot
  obtain ⟨front, name, rfl⟩ := ht.exists_below hdirectory hmem
  have hne : front ++ [name] ≠ [] := by simp
  have hnamed : ∀ n ∈ front ++ [name], Path.IsName n ∧ n ≠ ".." := fun n hn =>
    ht.named _ hmem n (List.mem_append_right _ hn)
  obtain ⟨hrootName, links, hgo⟩ := goFrom_root hroot
  have hnames : Path.names f.path = Path.names w.root ++ (front ++ [name]) := by
    rw [hpath, hrelative, Path.names_join hrootName fun n hn => (hnamed n hn).1]
  have hend : Path.ending f.path = .name := by
    obtain ⟨hname, hup⟩ := hnamed name (by simp)
    rw [hpath, hrelative, Path.ending_join hrootName
      (fun n hn => (hnamed n (List.mem_append_left _ hn)).1) hname hup]
  have hstart : t.startOf f.path = t.startOf w.root := by
    rw [FileTree.startOf, FileTree.startOf, hpath, hrelative,
      Path.isAbsolute_join hrootName fun n hn => (hnamed n hn).1]
  have hdown : ∀ follow, t.goFrom follow FileTree.maxLinks (t.startOf f.path) (Path.names f.path)
      (Path.ending f.path) = if (front ++ [name]).any FileTree.isLong then .error .nameTooLong
        else .ok ⟨root ++ (front ++ [name]), .name⟩ := by
    intro follow
    rw [hstart, hnames, hend, hgo follow _ _ hne]
    exact FileTree.goFrom_down hne (fun hup => (hnamed _ hup).2 rfl) hfronts hfile
  -- no name is too long, for then the path would not lead anywhere
  have hcheck := FileTree.checkPath_of_go hlocate
  rw [FileTree.locate, FileTree.go_of_checkPath hcheck, hdown] at hlocate
  have hlocated : t.locateLast f.path = .ok ⟨root ++ (front ++ [name]), .name⟩ := by
    rw [FileTree.locateLast, FileTree.go_of_checkPath hcheck, hdown]
    split at hlocate
    · cases hlocate
    · rename_i hshort
      rw [if_neg hshort]
  exact ⟨root, front, name, hrelative, hnamed, by rw [hnames, List.append_assoc], hend, hroot,
    hlocated, n, c, hfile⟩

/-- The path of a file of a walk leads to its place. -/
theorem Stands.place_of_locate {f : SourceFile} {root : Location} {names : List String}
    {name : String} (h : w.Stands t f root names name) {d : FileTree.Destination}
    (hlocate : t.locate f.path = .ok d) : d.place = root ++ (names ++ [name]) := by
  obtain ⟨n, c, hfile⟩ := h.file
  obtain rfl := Except.ok.inj (hlocate.symm.trans (FileTree.locate_of_locateLast h.located hfile))
  rfl

/-- No two files of a walk have the same relative path. -/
theorem nodup_relative_walk (w : Walker) (ht : t.IsProper) :
    ((w.walk t).map (·.relative)).Nodup := by
  unfold walk
  split
  · cases w.listed? w.root "" _ <;> simp
  · refine (((sortBy_perm _ _).map _).nodup_iff).2 (List.pairwise_map.2 ?_)
    refine List.pairwise_filterMap.2
      ((List.pairwise_map.1 ht.distinct).imp_of_mem fun {x y} hx hy hne f hf g hg => ?_)
    obtain ⟨-, -, names, -, hplace, hrelative, -⟩ := visit?_eq_some hf
    obtain ⟨-, -, names', -, hplace', hrelative', -⟩ := visit?_eq_some hg
    intro hsame
    have hnamed : ∀ n ∈ names, Path.IsName n := fun n hn =>
      (ht.named x hx n (hplace ▸ List.mem_append_right _ hn)).1
    have hnamed' : ∀ n ∈ names', Path.IsName n := fun n hn =>
      (ht.named y hy n (hplace' ▸ List.mem_append_right _ hn)).1
    have hnames : names = names' := by
      rw [← Path.names_intercalate hnamed, ← Path.names_intercalate hnamed', ← hrelative,
        ← hrelative', hsame]
    exact hne (by rw [hplace, hplace', hnames])
  · exact .nil

/-- No two files of a walk stand at the same place. -/
theorem eq_of_stands (ht : t.IsProper) {f g : SourceFile} (hf : f ∈ w.walk t) (hg : g ∈ w.walk t)
    {root root' : Location} {names names' : List String} {name name' : String}
    (h : w.Stands t f root names name) (h' : w.Stands t g root' names' name')
    (hplace : root ++ (names ++ [name]) = root' ++ (names' ++ [name'])) : f = g := by
  obtain rfl : root = root' := (Prod.mk.inj (Except.ok.inj (h.found.symm.trans h'.found))).1
  refine List.inj_on_of_nodup_map (w.nodup_relative_walk ht) hf hg ?_
  rw [h.relative, h'.relative, List.append_cancel_left hplace]

end Walker

end Marginalia
