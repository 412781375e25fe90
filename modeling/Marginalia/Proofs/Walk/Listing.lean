import Marginalia.Proofs.Project.Scan
import Marginalia.Proofs.Walk
import Marginalia.RunConfig

/-!
What a walk lists. It goes down from the root and into no directory that is passed over, so it comes
to a file iff no entry of the exclusion list is about the file or a directory above it. Which of
these files it lists is said by their last name and their size.
-/

namespace Marginalia

open Text

/-! ### What there is to list -/

/-- An entry of an exclusion list is a glob by one of its characters. -/
def IsGlobText (text : String) : Prop := ∃ c ∈ text.toList, c ∈ ['*', '?', '[', '\x7b']

/-- An entry of an exclusion list leaves out the file `name` in the last of the directories that
`dirs` lead through from the root. -/
inductive Excludes (text : String) (dirs : List String) (name : String) : Prop
  /-- A glob matches the path of the file or of a directory above it. -/
  | glob {g : Glob} {front : List String} : IsGlobText text → Glob.parse? true false text = some g →
    front <+: dirs ++ [name] → front ≠ [] → g.accepts ("/".intercalate front) = true →
    Excludes text dirs name
  /-- Any other entry is a part of the path of a directory above it. -/
  | part {front : List String} : ¬IsGlobText text → front <+: dirs → front ≠ [] →
    text.toList <:+: ("/".intercalate front).toList → Excludes text dirs name

/-- A file that settings ask for: `name` in the last of the directories that `dirs` lead through
from the root. -/
structure IsSpecified (c : RunConfig) (t : FileTree) (root : Location) (f : SourceFile)
    (dirs : List String) (name : String) : Prop where
  directories : ∀ front, front <+: dirs → t.at? (root ++ front) = some .directory
  file : ∃ n content, t.at? (root ++ (dirs ++ [name])) = some (.file n content)
    ∧ content.size ≤ c.maxFileSize
  relative : f.relative = "/".intercalate (dirs ++ [name])
  path : f.path = Path.join c.root f.relative
  language : ∃ stem extension, name = stem ++ "." ++ extension ∧ stem ≠ ""
    ∧ '.' ∉ extension.toList ∧ c.extensions.lookup (lowered extension) = some f.language
  kept : ∀ text ∈ c.exclude, trimmed text ≠ "" → ¬Excludes (trimmed text) dirs name

/-! ### Exclusions -/

/-- A traversal whose steps all succeed does. -/
theorem exists_mapM_eq_ok {α β ε : Type} {f : α → Except ε β} {as : List α}
    (h : ∀ a ∈ as, ∃ b, f a = .ok b) : ∃ bs, as.mapM f = .ok bs := by
  induction as with
  | nil => exact ⟨[], rfl⟩
  | cons a as ih =>
    obtain ⟨b, hb⟩ := h a List.mem_cons_self
    obtain ⟨bs, hbs⟩ := ih fun a ha => h a (List.mem_cons_of_mem _ ha)
    refine ⟨b :: bs, ?_⟩
    rw [List.mapM_cons, hb, hbs]
    rfl

/-- What a traversal comes to are the values of its steps. -/
theorem mem_iff_of_mapM_eq_ok {α β ε : Type} {f : α → Except ε β} {as : List α} {bs : List β}
    (h : as.mapM f = .ok bs) {b : β} : b ∈ bs ↔ ∃ a ∈ as, f a = .ok b := by
  induction as generalizing bs with
  | nil =>
    obtain rfl := Except.ok.inj (show Except.ok [] = .ok bs from h)
    simp
  | cons a as ih =>
    rw [List.mapM_cons] at h
    cases hfirst : f a with
    | error e =>
      rw [hfirst] at h
      cases h
    | ok first =>
      cases hrest : as.mapM f with
      | error e =>
        rw [hfirst, hrest] at h
        cases h
      | ok rest =>
        rw [hfirst, hrest] at h
        obtain rfl := Except.ok.inj (show Except.ok (first :: rest) = .ok bs from h)
        simp [ih hrest, hfirst, eq_comm]

theorem occursIn_iff {needle text : List Char} :
    occursIn needle text = true ↔ needle <:+: text := by
  induction text with
  | nil => simp [occursIn]
  | cons c rest ih =>
    rw [occursIn, Bool.or_eq_true, ih, List.isPrefixOf_iff_prefix, List.infix_cons_iff]

namespace Exclusion

variable {text : String}

theorem isGlobText_iff :
    (text.toList.any fun c => ['*', '?', '[', '\x7b'].contains c) = true ↔ IsGlobText text := by
  simp only [List.any_eq_true, List.contains_iff_mem]
  rfl

instance (text : String) : Decidable (IsGlobText text) := decidable_of_iff _ isGlobText_iff

theorem ofText?_of_isGlobText (h : IsGlobText text) :
    ofText? text = (Glob.parse? true false text).map glob := if_pos (isGlobText_iff.2 h)

theorem ofText?_of_not_isGlobText (h : ¬IsGlobText text) : ofText? text = some (part text) :=
  if_neg (mt isGlobText_iff.1 h)

/-- A text leaves out a file if what it writes down is about the file or a directory above it. -/
theorem excludes_iff {dirs : List String} {name : String} :
    Excludes text dirs name ↔ ∃ x, ofText? text = some x
      ∧ ((∃ front, front <+: dirs ∧ front ≠ [] ∧ x.covers ("/".intercalate front) true = true)
        ∨ x.covers ("/".intercalate (dirs ++ [name])) false = true) := by
  constructor
  · rintro (⟨hglob, hparse, hfront, hne, haccepts⟩ | ⟨hglob, hfront, hne, hpart⟩)
    · refine ⟨_, (ofText?_of_isGlobText hglob).trans (congrArg _ hparse), ?_⟩
      rcases List.prefix_concat_iff.1 hfront with rfl | hfront
      · exact .inr haccepts
      · exact .inl ⟨_, hfront, hne, haccepts⟩
    · exact ⟨_, ofText?_of_not_isGlobText hglob, .inl ⟨_, hfront, hne, occursIn_iff.2 hpart⟩⟩
  · rintro ⟨x, hx, hcovers⟩
    by_cases hglob : IsGlobText text
    · rw [ofText?_of_isGlobText hglob] at hx
      obtain ⟨g, hparse, rfl⟩ := Option.map_eq_some_iff.1 hx
      rcases hcovers with ⟨front, hfront, hne, haccepts⟩ | haccepts
      · exact .glob hglob hparse (hfront.trans (List.prefix_append _ _)) hne haccepts
      · exact .glob hglob hparse List.prefix_rfl (by simp) haccepts
    · rw [ofText?_of_not_isGlobText hglob] at hx
      obtain rfl := Option.some.inj hx
      rcases hcovers with ⟨front, hfront, hne, hpart⟩ | hfile
      · exact .part hglob hfront hne (occursIn_iff.1 hpart)
      · cases hfile

/-- The exclusions of a list are those of its entries, but for the blank ones. -/
theorem mem_ofTexts {texts : List String} {xs : List Exclusion} (h : ofTexts texts = .ok xs)
    {x : Exclusion} :
    x ∈ xs ↔ ∃ text ∈ texts, trimmed text ≠ "" ∧ ofText? (trimmed text) = some x := by
  rw [mem_iff_of_mapM_eq_ok h]
  constructor
  · rintro ⟨entry, hentry, hx⟩
    obtain ⟨hmem, hne⟩ := List.mem_filter.1 hentry
    obtain ⟨text, htext, rfl⟩ := List.mem_map.1 hmem
    split at hx
    · rename_i y hy
      exact ⟨text, htext, bne_iff_ne.1 hne, hy.trans (congrArg some (Except.ok.inj hx))⟩
    · cases hx
  · rintro ⟨text, htext, hne, hx⟩
    refine ⟨trimmed text, List.mem_filter.2 ⟨List.mem_map_of_mem htext, bne_iff_ne.2 hne⟩, ?_⟩
    rw [hx]

/-- There are some if all globs of the list can be read. -/
theorem exists_ofTexts {texts : List String} (h : ∀ text ∈ texts, IsGlobText (trimmed text) →
    (Glob.parse? true false (trimmed text)).isSome = true) : ∃ xs, ofTexts texts = .ok xs := by
  refine exists_mapM_eq_ok fun entry hentry => ?_
  obtain ⟨hmem, -⟩ := List.mem_filter.1 hentry
  obtain ⟨text, htext, rfl⟩ := List.mem_map.1 hmem
  by_cases hglob : IsGlobText (trimmed text)
  · obtain ⟨g, hg⟩ := Option.isSome_iff_exists.1 (h text htext hglob)
    exact ⟨glob g, by rw [ofText?_of_isGlobText hglob, hg]; rfl⟩
  · exact ⟨part (trimmed text), by rw [ofText?_of_not_isGlobText hglob]⟩

end Exclusion

/-! ### Pruning -/

namespace Walker

variable {w : Walker} {t : FileTree} {root : Location} {names dirs : List String} {name : String}

/-- The walk goes into directories, each one below the one before, and into none that it passes
over. -/
inductive Enters (w : Walker) (t : FileTree) (root : Location) : List String → Prop
  | root : Enters w t root []
  | down {names : List String} {name : String} : Enters w t root names →
    t.at? (root ++ (names ++ [name])) = some .directory →
    w.prunes t root (names ++ [name]) true = false → Enters w t root (names ++ [name])

/-- So it goes into a directory iff it passes over none on the way there. -/
theorem enters_iff : w.Enters t root names ↔ ∀ front, front <+: names → front ≠ [] →
    t.at? (root ++ front) = some .directory ∧ w.prunes t root front true = false := by
  constructor
  · intro h
    induction h with
    | root => exact fun front hfront hne => absurd (List.prefix_nil.1 hfront) hne
    | down _ hdirectory hkept ih =>
      intro front hfront hne
      rcases List.prefix_concat_iff.1 hfront with rfl | hfront
      · exact ⟨hdirectory, hkept⟩
      · exact ih front hfront hne
  · intro h
    induction names using List.reverseRecOn with
    | nil => exact .root
    | append_singleton names name ih =>
      obtain ⟨hdirectory, hkept⟩ := h _ List.prefix_rfl (by simp)
      exact .down (ih fun front hfront => h front (hfront.trans (List.prefix_append _ _)))
        hdirectory hkept

theorem forall_take_iff {P : List String → Prop} :
    (∀ i, i < names.length → P (names.take (i + 1)))
      ↔ ∀ front, front <+: names → front ≠ [] → P front := by
  constructor
  · intro h front hfront hne
    obtain ⟨i, hi⟩ := Nat.exists_eq_add_one.2 (List.length_pos_iff.2 hne)
    have hlast := h i (Nat.lt_of_succ_le (hi.symm.trans_le hfront.length_le))
    rwa [← hi, ← List.prefix_iff_eq_take.1 hfront] at hlast
  · intro h i hi
    have hlength : (names.take (i + 1)).length = i + 1 := List.length_take_of_le hi
    exact h _ (List.take_prefix _ _) (List.ne_nil_of_length_eq_add_one hlength)

/-- The walk reaches what it does not pass over, with directories on the way that it does not pass
over. -/
theorem reaches_iff_prefixes : w.reaches t root names = true
    ↔ ∀ front, front <+: names → front ≠ [] →
      (front.length < names.length → t.at? (root ++ front) = some .directory)
        ∧ w.prunes t root front (decide (front.length < names.length)) = false := by
  rw [← forall_take_iff, reaches, List.all_eq_true]
  refine forall_congr' fun i => ?_
  rw [List.mem_range]
  refine imp_congr_right fun hi => ?_
  have hlength : (names.take (i + 1)).length = i + 1 := List.length_take_of_le hi
  simp only [hlength, Bool.and_eq_true, Bool.or_eq_true, Bool.not_eq_true', beq_iff_eq,
    decide_eq_false_iff_not, imp_iff_not_or]

/-- So it reaches the files in the directories it goes into. -/
theorem reaches_iff : w.reaches t root (dirs ++ [name]) = true
    ↔ w.Enters t root dirs ∧ w.prunes t root (dirs ++ [name]) false = false := by
  have hshort {front : List String} (h : front <+: dirs) :
      front.length < (dirs ++ [name]).length := by
    rw [List.length_append]
    exact Nat.lt_succ_of_le h.length_le
  rw [enters_iff, reaches_iff_prefixes]
  constructor
  · intro h
    refine ⟨fun front hfront hne => ?_, ?_⟩
    · obtain ⟨hdirectory, hkept⟩ := h front (hfront.trans (List.prefix_append _ _)) hne
      rw [decide_eq_true (hshort hfront)] at hkept
      exact ⟨hdirectory (hshort hfront), hkept⟩
    · obtain ⟨-, hkept⟩ := h _ List.prefix_rfl (by simp)
      rwa [decide_eq_false (Nat.lt_irrefl _)] at hkept
  · rintro ⟨hdirs, hfile⟩ front hfront hne
    rcases List.prefix_concat_iff.1 hfront with rfl | hfront
    · rw [decide_eq_false (Nat.lt_irrefl _)]
      exact ⟨fun hlt => absurd hlt (Nat.lt_irrefl _), hfile⟩
    · obtain ⟨hdirectory, hkept⟩ := hdirs front hfront hne
      rw [decide_eq_true (hshort hfront)]
      exact ⟨fun _ => hdirectory, hkept⟩

/-- Where no ignore files are heeded, the walk passes over what its exclusions are about. -/
theorem prunes_eq_false_iff (hplain : w.heedsIgnoreFiles = false) {isDirectory : Bool} :
    w.prunes t root names isDirectory = false
      ↔ ∀ x ∈ w.exclusions, x.covers ("/".intercalate names) isDirectory = false := by
  rw [prunes, hplain, Bool.false_and, Bool.false_or, List.any_eq_false]
  simp

/-- So it reaches a file iff there are directories on the way and no text of the exclusion list
leaves the file out. -/
theorem reaches_iff_not_excludes (hplain : w.heedsIgnoreFiles = false) {texts : List String}
    (hxs : Exclusion.ofTexts texts = .ok w.exclusions) :
    w.reaches t root (dirs ++ [name]) = true
      ↔ (∀ front, front <+: dirs → front ≠ [] → t.at? (root ++ front) = some .directory)
        ∧ ∀ text ∈ texts, trimmed text ≠ "" → ¬Excludes (trimmed text) dirs name := by
  rw [reaches_iff, enters_iff]
  simp only [prunes_eq_false_iff hplain]
  constructor
  · rintro ⟨hdirs, hfile⟩
    refine ⟨fun front hfront hne => (hdirs front hfront hne).1, fun text htext hne hexcludes => ?_⟩
    obtain ⟨x, hread, hcovers⟩ := Exclusion.excludes_iff.1 hexcludes
    have hx := (Exclusion.mem_ofTexts hxs).2 ⟨text, htext, hne, hread⟩
    rcases hcovers with ⟨front, hfront, hne, hcovers⟩ | hcovers
    · rw [(hdirs front hfront hne).2 x hx] at hcovers
      cases hcovers
    · rw [hfile x hx] at hcovers
      cases hcovers
  · rintro ⟨hdirs, hkept⟩
    refine ⟨fun front hfront hne => ⟨hdirs front hfront hne, fun x hx => ?_⟩, fun x hx => ?_⟩
    all_goals
      obtain ⟨text, htext, hblank, hread⟩ := (Exclusion.mem_ofTexts hxs).1 hx
      refine Bool.eq_false_iff.2 fun hcovers => hkept text htext hblank ?_
    · exact Exclusion.excludes_iff.2 ⟨x, hread, .inl ⟨front, hfront, hne, hcovers⟩⟩
    · exact Exclusion.excludes_iff.2 ⟨x, hread, .inr hcovers⟩

/-! ### Files -/

/-- A file is listed by its size and the extension of its path. -/
theorem listed?_eq_some_iff {path relative : String} {content : Content} {f : SourceFile} :
    w.listed? path relative content = some f ↔ content.size ≤ w.maxFileSize ∧ f.path = path
      ∧ f.relative = relative ∧ w.language? path = some f.language := by
  obtain ⟨p, r, l⟩ := f
  unfold listed?
  by_cases hsize : content.size > w.maxFileSize
  · simp [hsize, Nat.not_le.2 hsize]
  · rw [if_neg hsize, Option.map_eq_some_iff]
    simp only [SourceFile.mk.injEq]
    constructor
    · rintro ⟨language, hlanguage, rfl, rfl, rfl⟩
      exact ⟨Nat.not_lt.1 hsize, rfl, rfl, hlanguage⟩
    · rintro ⟨-, rfl, rfl, hlanguage⟩
      exact ⟨l, hlanguage, rfl, rfl, rfl⟩

/-- The language of a path below the root is that of the extension of its last name. -/
theorem language?_join (hroot : w.root ≠ "") (h : ∀ n ∈ dirs ++ [name], Path.IsName n ∧ n ≠ "..")
    {l : Language} :
    w.language? (Path.join w.root ("/".intercalate (dirs ++ [name]))) = some l
      ↔ ∃ stem extension, name = stem ++ "." ++ extension ∧ stem ≠ "" ∧ '.' ∉ extension.toList
        ∧ w.extensions.lookup (lowered extension) = some l := by
  have hname : Path.fileName? (Path.join w.root ("/".intercalate (dirs ++ [name])))
      = some name := by
    rw [Path.fileName?, Path.names_join hroot fun n hn => (h n hn).1, ← List.append_assoc,
      List.getLast?_concat]
    simpa using (h name (by simp)).2
  rw [language?, Path.extension?, hname, Option.bind_some, Option.bind_eq_some_iff]
  constructor
  · rintro ⟨extension, hextension, hl⟩
    obtain ⟨⟨stem, extension⟩, hsplit, rfl⟩ := Option.map_eq_some_iff.1 hextension
    obtain ⟨hname, hstem, hdot⟩ := Path.splitExtension?_eq_some_iff.1 hsplit
    exact ⟨stem, extension, hname, hstem, hdot, hl⟩
  · rintro ⟨stem, extension, hname, hstem, hdot, hl⟩
    have hsplit := Path.splitExtension?_eq_some_iff.2 ⟨hname, hstem, hdot⟩
    exact ⟨extension, by rw [hsplit]; rfl, hl⟩

/-- What the walk of a directory lists. -/
theorem mem_walk_iff (ht : t.IsProper) (hroot : t.find w.root = .ok (root, .directory))
    {f : SourceFile} : f ∈ w.walk t ↔ ∃ dirs name n content,
      t.at? (root ++ (dirs ++ [name])) = some (.file n content)
        ∧ w.reaches t root (dirs ++ [name]) = true
        ∧ w.listed? (Path.join w.root ("/".intercalate (dirs ++ [name])))
          ("/".intercalate (dirs ++ [name])) content = some f := by
  obtain ⟨-, -, -, hdirectory⟩ := FileTree.find_eq_ok hroot
  unfold walk
  rw [hroot]
  simp only
  rw [(sortBy_perm _ _).mem_iff, List.mem_filterMap]
  constructor
  · rintro ⟨⟨place, e⟩, hmem, hvisit⟩
    obtain ⟨n, content, names, rfl, rfl, -⟩ := visit?_eq_some hvisit
    have hfile := ht.at?_of_mem hmem
    obtain ⟨dirs, name, rfl⟩ := ht.exists_below hdirectory hmem
    unfold visit? at hvisit
    simp only [List.drop_left] at hvisit
    split at hvisit
    · rename_i hreached
      exact ⟨dirs, name, n, content, hfile, (Bool.and_eq_true _ _ ▸ hreached).2, hvisit⟩
    · cases hvisit
  · rintro ⟨dirs, name, n, content, hfile, hreached, hlisted⟩
    refine ⟨(_, _), FileTree.mem_of_at? (by simp) hfile, ?_⟩
    unfold visit?
    simp only [List.drop_left]
    rw [if_pos, hlisted]
    simp [hreached]

/-- The files of a walk come in the order of their relative paths, each of them once. -/
theorem pairwise_relative_walk (w : Walker) (ht : t.IsProper) :
    ((w.walk t).map (·.relative)).Pairwise (· < ·) := by
  have hle := List.pairwise_map.2 (pairwise_walk w t)
  exact (hle.and (w.nodup_relative_walk ht)).imp fun {f g} h =>
    String.not_le.1 fun hge => h.2 (String.le_antisymm h.1 hge)

end Walker

/-- The walker lists exactly the files that are asked for. With settings whose globs can be read and
that heed no ignore files, there is a walker, and its walk of a directory is in the order of the
relative paths, each of them once, and has just the files of a listed language and size that no
entry of the exclusion list leaves out. -/
theorem walk_lists_specified {c : RunConfig} (hplain : c.heedsIgnoreFiles = false)
    (hglobs : ∀ text ∈ c.exclude, IsGlobText (trimmed text) →
      (Glob.parse? true false (trimmed text)).isSome = true)
    {t : FileTree} (ht : t.IsProper) {root : Location}
    (hroot : t.find c.root = .ok (root, .directory)) :
    ∃ w, c.walker = .ok w ∧ ((w.walk t).map (·.relative)).Pairwise (· < ·)
      ∧ ∀ f, f ∈ w.walk t ↔ ∃ dirs name, IsSpecified c t root f dirs name := by
  obtain ⟨xs, hxs⟩ := Exclusion.exists_ofTexts hglobs
  let w : Walker := ⟨c.root, c.extensions, xs, c.maxFileSize, c.heedsIgnoreFiles⟩
  have hw : c.walker = .ok w := by
    unfold RunConfig.walker
    rw [hxs]
  refine ⟨w, hw, w.pairwise_relative_walk ht, fun f => ?_⟩
  obtain ⟨-, -, -, hdirectory⟩ := FileTree.find_eq_ok hroot
  obtain ⟨hne, -⟩ := Walker.goFrom_root (w := w) hroot
  have hnamed {dirs : List String} {name : String} {e : Entry}
      (he : t.at? (root ++ (dirs ++ [name])) = some e) :
      ∀ n ∈ dirs ++ [name], Path.IsName n ∧ n ≠ ".." := fun n hn =>
    ht.named _ (FileTree.mem_of_at? (by simp) he) n (List.mem_append_right _ hn)
  rw [Walker.mem_walk_iff (w := w) ht hroot]
  refine exists_congr fun dirs => exists_congr fun name => ?_
  constructor
  · rintro ⟨n, content, hfile, hreaches, hlisted⟩
    obtain ⟨hdirs, hkept⟩ := (Walker.reaches_iff_not_excludes hplain hxs).1 hreaches
    obtain ⟨hsize, hpath, hrelative, hlanguage⟩ := Walker.listed?_eq_some_iff.1 hlisted
    refine ⟨fun front hfront => ?_, ⟨n, content, hfile, hsize⟩, hrelative, ?_,
      (Walker.language?_join hne (hnamed hfile)).1 hlanguage, hkept⟩
    · by_cases hnil : front = []
      · rwa [hnil, List.append_nil]
      · exact hdirs front hfront hnil
    · rw [hpath, hrelative]
  · rintro h
    obtain ⟨n, content, hfile, hsize⟩ := h.file
    have hlanguage := (Walker.language?_join (w := w) hne (hnamed hfile)).2 h.language
    refine ⟨n, content, hfile, (Walker.reaches_iff_not_excludes hplain hxs).2
      ⟨fun front hfront _ => h.directories front hfront, h.kept⟩,
      Walker.listed?_eq_some_iff.2 ⟨hsize, ?_, h.relative, hlanguage⟩⟩
    rw [h.path, h.relative]

/-- A tree with a file of every kind. -/
def variedTree : FileTree where
  entries := [(["w"], .directory), (["w", "build"], .directory), (["w", "src"], .directory),
    (["w", "build", "made.py"], .file 0 (.text "")), (["w", "src", "notes"], .file 1 (.text "")),
    (["w", "src", "A.PY"], .file 2 (.text "a = 1\n")), (["w", "src", "link.py"], .link "A.PY"),
    (["w", "src", "long.py"], .file 3 (.text "l = 1111\n")),
    (["w", "src", "a_pb.py"], .file 4 (.text "")), (["w", "src", "build.py"], .file 5 (.text ""))]
  nextSerial := 6
  workingDirectory := ["w"]

/-- Settings that leave out a directory by its name and files by a glob. -/
def selectiveConfig : RunConfig where
  extensions := [("py", .python)]
  exclude := [" build ", "*_pb.py", ""]
  maxFileSize := 8
  heedsIgnoreFiles := false

/-- The file with the name of the directory stays. -/
theorem walk_lists_specified_varied : variedTree.IsProper
    ∧ ∃ w, selectiveConfig.walker = .ok w
      ∧ (w.walk variedTree).map (·.relative) = ["src/A.PY", "src/build.py"]
      ∧ ∀ f, f ∈ w.walk variedTree
        ↔ ∃ dirs name, IsSpecified selectiveConfig variedTree ["w"] f dirs name := by
  have hproper : variedTree.IsProper := by decide +kernel
  have hlisted : (match selectiveConfig.walker with
      | .ok w => (w.walk variedTree).map (·.relative)
      | .error _ => []) = ["src/A.PY", "src/build.py"] := by decide +kernel
  have hglobs : ∀ text ∈ selectiveConfig.exclude, IsGlobText (trimmed text) →
      (Glob.parse? true false (trimmed text)).isSome = true := by decide +kernel
  have hroot : variedTree.find selectiveConfig.root = .ok (["w"], .directory) := by decide +kernel
  obtain ⟨w, hw, -, hmem⟩ := walk_lists_specified rfl hglobs hproper hroot
  rw [hw] at hlisted
  exact ⟨hproper, w, hw, hlisted, hmem⟩

end Marginalia
