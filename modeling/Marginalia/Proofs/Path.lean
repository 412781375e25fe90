import Marginalia.Synchronize.File

/-!
What paths are put together from. A path that is put together from names has these names, starts
where it was told to start and ends with the last of them. So the path of the hidden file beside a
file has the names of the path of the file, but for the last one.
-/

namespace Marginalia

open Text

/-! ### Cutting at a separator -/

theorem splitAtEach_append (c : Char) (front back : List Char) :
    splitAtEach c (front ++ c :: back) = splitAtEach c front ++ splitAtEach c back := by
  induction front with
  | nil =>
    change prependPiece c c (splitAtEach c back) = [[]] ++ splitAtEach c back
    cases h : splitAtEach c back with
    | nil => exact absurd h (splitAtEach_ne_nil c back)
    | cons piece rest => simp [prependPiece]
  | cons d front ih =>
    change prependPiece c d (splitAtEach c (front ++ c :: back))
      = prependPiece c d (splitAtEach c front) ++ splitAtEach c back
    rw [ih]
    cases h : splitAtEach c front with
    | nil => exact absurd h (splitAtEach_ne_nil c front)
    | cons piece rest =>
      by_cases hd : d = c <;> simp [prependPiece, hd]

theorem splitAtEach_of_not_mem {c : Char} {text : List Char} (h : c ∉ text) :
    splitAtEach c text = [text] := by
  induction text with
  | nil => rfl
  | cons d text ih =>
    obtain ⟨hd, htext⟩ : ¬c = d ∧ c ∉ text := by simpa using h
    change prependPiece c d (splitAtEach c text) = _
    rw [ih htext, prependPiece, if_neg (Ne.symm hd)]

theorem not_mem_of_mem_splitAtEach {c : Char} {text piece : List Char}
    (h : piece ∈ splitAtEach c text) : c ∉ piece := by
  induction text generalizing piece with
  | nil =>
    rw [show piece = [] by simpa [splitAtEach] using h]
    exact List.not_mem_nil
  | cons d text ih =>
    change piece ∈ prependPiece c d (splitAtEach c text) at h
    cases hsplit : splitAtEach c text with
    | nil => exact absurd hsplit (splitAtEach_ne_nil c text)
    | cons first rest =>
      rw [hsplit] at h ih
      simp only [prependPiece] at h
      split at h
      · rcases List.mem_cons.1 h with rfl | h
        · exact List.not_mem_nil
        · exact ih h
      · rename_i hd
        rcases List.mem_cons.1 h with rfl | h
        · have hfirst := ih List.mem_cons_self
          simpa [Ne.symm hd] using hfirst
        · exact ih (List.mem_cons_of_mem _ h)

namespace Path

/-! ### Names -/

/-- A name that a path can have: there is something to it, and no slash in it. -/
structure IsName (name : String) : Prop where
  slash : '/' ∉ name.toList
  empty : name ≠ ""
  dot : name ≠ "."

instance (name : String) : Decidable (IsName name) :=
  decidable_of_iff ('/' ∉ name.toList ∧ name ≠ "" ∧ name ≠ ".")
    ⟨fun h => ⟨h.1, h.2.1, h.2.2⟩, fun h => ⟨h.slash, h.empty, h.dot⟩⟩

theorem isName_of_mem_names {path name : String} (h : name ∈ names path) : IsName name := by
  obtain ⟨hmem, hsays⟩ := List.mem_filter.1 h
  obtain ⟨piece, hpiece, rfl⟩ := List.mem_map.1 hmem
  obtain ⟨hempty, hdot⟩ : String.ofList piece ≠ "" ∧ String.ofList piece ≠ "." := by
    simpa using hsays
  exact ⟨by simpa using not_mem_of_mem_splitAtEach hpiece, hempty, hdot⟩

theorem names_append (front back : String) :
    names (front ++ "/" ++ back) = names front ++ names back := by
  simp only [names, String.toList_append]
  rw [List.append_assoc]
  change List.filter _ ((splitAtEach '/' (front.toList ++ '/' :: back.toList)).map _) = _
  rw [splitAtEach_append, List.map_append, List.filter_append]

theorem IsName.names_eq {name : String} (h : IsName name) : names name = [name] := by
  rw [names, splitAtEach_of_not_mem h.slash]
  simp [h.empty, h.dot]

theorem names_intercalate {ns : List String} (h : ∀ n ∈ ns, IsName n) :
    names ("/".intercalate ns) = ns := by
  induction ns with
  | nil => rfl
  | cons n ns ih =>
    have hn := (h n List.mem_cons_self).names_eq
    have hns := ih fun m hm => h m (List.mem_cons_of_mem _ hm)
    cases ns with
    | nil => rw [String.intercalate_singleton, hn]
    | cons m ns =>
      rw [String.intercalate_cons_of_ne_nil (List.cons_ne_nil _ _), names_append, hn, hns]
      rfl

/-! ### How a path ends -/

/-- A path whose last piece is a name ends with it. -/
theorem ending_of_getLast? {path name : String} (hname : IsName name) (hup : name ≠ "..")
    (h : (splitAtEach '/' path.toList).getLast? = some name.toList) : ending path = .name := by
  obtain ⟨front, hfront⟩ := List.getLast?_eq_some_iff.1 h
  have hempty : name.toList ≠ [] := fun he => hname.empty (String.toList_eq_nil_iff.1 he)
  have hdot : name.toList ≠ ['.'] := fun he => hname.dot (String.toList_inj.1 he)
  have hdots : name.toList ≠ ['.', '.'] := fun he => hup (String.toList_inj.1 he)
  have hpieces : (splitAtEach '/' path.toList).reverse = name.toList :: front.reverse := by
    rw [hfront, List.reverse_append, List.reverse_singleton, List.singleton_append]
  have hdrop : (name.toList :: front.reverse).dropWhile List.isEmpty
      = name.toList :: front.reverse := List.dropWhile_cons_of_neg (by simpa using hempty)
  simp only [ending, hpieces, hdrop]
  split
  · rename_i hnil
    cases hnil
  · rename_i hhead
    exact absurd (List.cons.inj hhead).1 hdot
  · rename_i hhead
    exact absurd (List.cons.inj hhead).1 hdots
  · simp [hempty]

theorem getLast?_splitAtEach_append (front back : String) :
    (splitAtEach '/' (front ++ "/" ++ back).toList).getLast?
      = (splitAtEach '/' back.toList).getLast? := by
  simp only [String.toList_append]
  rw [List.append_assoc]
  change (splitAtEach '/' (front.toList ++ '/' :: back.toList)).getLast? = _
  rw [splitAtEach_append, List.getLast?_append]
  cases h : splitAtEach '/' back.toList with
  | nil => exact absurd h (splitAtEach_ne_nil _ _)
  | cons piece rest => rw [List.getLast?_cons]; rfl

theorem getLast?_splitAtEach_intercalate (front : List String) {name : String}
    (h : IsName name) :
    (splitAtEach '/' ("/".intercalate (front ++ [name])).toList).getLast? = some name.toList := by
  induction front with
  | nil => simp [splitAtEach_of_not_mem h.slash]
  | cons n front ih =>
    rw [List.cons_append, String.intercalate_cons_of_ne_nil (by simp),
      getLast?_splitAtEach_append, ih]

/-! ### Where a path starts -/

theorem isAbsolute_append {front : String} (h : front ≠ "") (back : String) :
    isAbsolute (front ++ back) = isAbsolute front := by
  cases hfront : front.toList with
  | nil => exact absurd (String.toList_eq_nil_iff.1 hfront) h
  | cons c cs => simp [isAbsolute, String.toList_append, hfront]

theorem isAbsolute_intercalate {ns : List String} (h : ∀ n ∈ ns, IsName n) :
    isAbsolute ("/".intercalate ns) = false := by
  have hname {n : String} (hn : IsName n) : isAbsolute n = false := by
    cases hchars : n.toList with
    | nil => simp [isAbsolute, hchars]
    | cons c cs =>
      have hslash := hn.slash
      rw [hchars] at hslash
      have hc : c ≠ '/' := fun hc => hslash (hc ▸ List.mem_cons_self)
      simp [isAbsolute, hchars, hc]
  cases ns with
  | nil => rfl
  | cons n ns =>
    have hn := h n List.mem_cons_self
    cases ns with
    | nil => rw [String.intercalate_singleton, hname hn]
    | cons m ns =>
      rw [String.intercalate_cons_of_ne_nil (List.cons_ne_nil _ _), String.append_assoc,
        isAbsolute_append hn.empty, hname hn]

/-! ### Paths of names -/

section

variable {start : String} {ns : List String}

theorem names_ofNames (h : ∀ n ∈ ns, IsName n) : names (ofNames start ns) = ns := by
  unfold ofNames
  split
  · exact (names_append "" _).trans (names_intercalate h)
  · exact (congrArg names (String.empty_append)).trans (names_intercalate h)

theorem isAbsolute_ofNames (h : ∀ n ∈ ns, IsName n) :
    isAbsolute (ofNames start ns) = isAbsolute start := by
  unfold ofNames
  split
  · rename_i hstart
    rw [hstart, isAbsolute_append (by decide)]
    rfl
  · rename_i hstart
    rw [String.empty_append, isAbsolute_intercalate h]
    simpa using hstart

theorem ending_ofNames {name : String} (h : IsName name) (hup : name ≠ "..") :
    ending (ofNames start (ns ++ [name])) = .name := by
  refine ending_of_getLast? h hup ?_
  unfold ofNames
  split
  · exact (getLast?_splitAtEach_append "" _).trans (getLast?_splitAtEach_intercalate ns h)
  · rw [String.empty_append]
    exact getLast?_splitAtEach_intercalate ns h

end

/-! ### Paths below a root -/

section

variable {root name : String} {ns : List String}

/-- A path below a root is the path of the root, with or without its last slash, and the names. -/
theorem join_intercalate (hroot : root ≠ "") (h : ∀ n ∈ ns, IsName n) :
    ∃ front, join root ("/".intercalate ns) = front ++ "/" ++ "/".intercalate ns
      ∧ names front = names root ∧ isAbsolute (front ++ "/") = isAbsolute root := by
  have hrelative := isAbsolute_intercalate h
  unfold join
  rw [hrelative, if_neg (by simpa using hroot)]
  split
  · rename_i hslash
    obtain ⟨front, hfront⟩ := List.getLast?_eq_some_iff.1 (by simpa using hslash)
    have hroot' : root = String.ofList front ++ "/" := by
      rw [← String.toList_inj, hfront, String.toList_append, String.toList_ofList]
      rfl
    refine ⟨String.ofList front, by rw [hroot'], ?_, by rw [hroot']⟩
    rw [hroot']
    have hnames := names_append (String.ofList front) ""
    rw [String.append_empty] at hnames
    rw [hnames]
    exact (List.append_nil _).symm
  · exact ⟨root, rfl, rfl, isAbsolute_append hroot _⟩

theorem names_join (hroot : root ≠ "") (h : ∀ n ∈ ns, IsName n) :
    names (join root ("/".intercalate ns)) = names root ++ ns := by
  obtain ⟨front, hjoin, hnames, -⟩ := join_intercalate hroot h
  rw [hjoin, names_append, hnames, names_intercalate h]

theorem isAbsolute_join (hroot : root ≠ "") (h : ∀ n ∈ ns, IsName n) :
    isAbsolute (join root ("/".intercalate ns)) = isAbsolute root := by
  obtain ⟨front, hjoin, -, habsolute⟩ := join_intercalate hroot h
  rw [hjoin, isAbsolute_append (by simp), habsolute]

theorem ending_join (hroot : root ≠ "") (hns : ∀ n ∈ ns, IsName n) (h : IsName name)
    (hup : name ≠ "..") : ending (join root ("/".intercalate (ns ++ [name]))) = .name := by
  have hall : ∀ n ∈ ns ++ [name], IsName n := by
    intro n hn
    rcases List.mem_append.1 hn with hn | hn
    · exact hns n hn
    · exact List.mem_singleton.1 hn ▸ h
  obtain ⟨front, hjoin, -⟩ := join_intercalate hroot hall
  refine ending_of_getLast? h hup ?_
  rw [hjoin, getLast?_splitAtEach_append, getLast?_splitAtEach_intercalate ns h]

end

/-! ### The file beside a file -/

/-- The name of the hidden file beside a file of a name. -/
def besideName (name : String) : String := s!".{name}.madl.tmp"

theorem toList_besideName (name : String) :
    (besideName name).toList = '.' :: (name.toList ++ ".madl.tmp".toList) := by
  change ("." ++ name ++ ".madl.tmp").toList = _
  simp [String.toList_append]

theorem besideName_injective {name name' : String} (h : besideName name = besideName name') :
    name = name' := by
  have hchars := congrArg String.toList h
  rw [toList_besideName, toList_besideName, List.cons_inj_right] at hchars
  exact String.toList_inj.1 (List.append_cancel_right hchars)

theorem isName_besideName {name : String} (h : IsName name) :
    IsName (besideName name) ∧ besideName name ≠ ".." := by
  have hlong : 2 < (besideName name).toList.length := by
    rw [toList_besideName, List.length_cons, List.length_append]
    have htail : ".madl.tmp".toList.length = 9 := rfl
    omega
  have hne {short : String} (hshort : short.toList.length ≤ 2) : besideName name ≠ short := by
    rintro rfl
    omega
  refine ⟨⟨?_, hne (by decide), hne (by decide)⟩, hne (by decide)⟩
  rw [toList_besideName]
  simpa using h.slash

/-- The path of the hidden file has the names of the path of the file, but for the last one. -/
theorem besidePath?_of_names {path name : String} {front : List String}
    (h : names path = front ++ [name]) (hup : name ≠ "..") :
    ∃ beside, besidePath? path = some beside ∧ names beside = front ++ [besideName name]
      ∧ ending beside = .name ∧ isAbsolute beside = isAbsolute path := by
  have hnames : ∀ n ∈ front ++ [name], IsName n := fun n hn =>
    isName_of_mem_names (h.symm ▸ hn : n ∈ names path)
  obtain ⟨hbeside, hbesideUp⟩ := isName_besideName (hnames name (by simp))
  have hall : ∀ n ∈ front ++ [besideName name], IsName n := by
    intro n hn
    rcases List.mem_append.1 hn with hn | hn
    · exact hnames n (List.mem_append_left _ hn)
    · exact List.mem_singleton.1 hn ▸ hbeside
  refine ⟨ofNames path (front ++ [besideName name]), ?_, names_ofNames hall,
    ending_ofNames hbeside hbesideUp, isAbsolute_ofNames hall⟩
  have hname : fileName? path = some name := by simp [fileName?, h, hup]
  rw [besidePath?, hname, Option.map_some, withFileName, h, List.dropLast_concat]
  rfl

/-- A file has a hidden file beside it if its path ends with a name. -/
theorem names_of_besidePath? {path beside : String} (h : besidePath? path = some beside) :
    ∃ front name, names path = front ++ [name] ∧ name ≠ ".."
      ∧ names beside = front ++ [besideName name] ∧ besideName name ≠ ".."
      ∧ ending beside = .name ∧ isAbsolute beside = isAbsolute path := by
  obtain ⟨name, hname, -⟩ := Option.map_eq_some_iff.1 h
  obtain ⟨hlast, hup⟩ := Option.filter_eq_some_iff.1 hname
  have hup : name ≠ ".." := by simpa using hup
  obtain ⟨front, hnames⟩ := List.getLast?_eq_some_iff.1 hlast
  have hmem : name ∈ names path := by simp [hnames]
  obtain ⟨beside', hbeside, hrest⟩ := besidePath?_of_names hnames hup
  obtain rfl := Option.some.inj (h.symm.trans hbeside)
  exact ⟨front, name, hnames, hup, hrest.1, (isName_besideName (isName_of_mem_names hmem)).2,
    hrest.2⟩

/-! ### Another extension -/

/-- A path that ends with a name has a last name, and that leads downward. -/
theorem names_of_ending {path : String} (h : ending path = .name) :
    ∃ front name, names path = front ++ [name] ∧ name ≠ ".." := by
  unfold ending at h
  cases hpieces : (splitAtEach '/' path.toList).reverse with
  | nil => simp [hpieces] at h
  | cons piece pieces =>
    simp only [hpieces, List.head?_cons] at h
    have hne : piece ≠ [] := by
      rintro rfl
      split at h <;> simp at h
    rw [List.dropWhile_cons_of_neg (by simpa using hne)] at h
    have hsplit : splitAtEach '/' path.toList = pieces.reverse ++ [piece] := by
      rw [← List.reverse_reverse (splitAtEach '/' path.toList), hpieces, List.reverse_cons]
    have hdots : piece ≠ ['.'] ∧ piece ≠ ['.', '.'] := by
      constructor <;> rintro rfl <;> simp at h
    have hname (short : String) (hshort : piece ≠ short.toList) : String.ofList piece ≠ short :=
      fun heq => hshort (by rw [← heq, String.toList_ofList])
    refine ⟨((pieces.reverse.map String.ofList).filter fun n => n != "" && n != "."),
      String.ofList piece, ?_, hname ".." hdots.2⟩
    rw [names, hsplit, List.map_append, List.filter_append]
    simp [hname "" hne, hname "." hdots.1]

/-- A text is cut at its first separator. -/
theorem splitAtFirst?_eq_some_iff {separator : Char} {text front back : List Char} :
    splitAtFirst? separator text = some (front, back)
      ↔ text = front ++ separator :: back ∧ separator ∉ front := by
  induction text generalizing front with
  | nil => simp [splitAtFirst?]
  | cons c rest ih =>
    rw [splitAtFirst?]
    by_cases hc : c = separator
    · cases front with
      | nil => simp [hc]
      | cons d front => grind
    · cases front with
      | nil => simp [hc]
      | cons d front =>
        rw [if_neg hc, Option.map_eq_some_iff]
        constructor
        · rintro ⟨⟨front', back'⟩, hrest, heq⟩
          obtain ⟨hcons, rfl⟩ := Prod.mk.inj heq
          obtain ⟨rfl, rfl⟩ := List.cons.inj hcons
          obtain ⟨rfl, hfront⟩ := ih.1 hrest
          exact ⟨rfl, by simp [hfront, Ne.symm hc]⟩
        · rintro ⟨htext, hfront⟩
          obtain ⟨rfl, hrest⟩ := List.cons.inj htext
          have hcut := ih.2 ⟨hrest, List.not_mem_of_not_mem_cons hfront⟩
          exact ⟨(front, back), hcut, rfl⟩

/-- The extension of a name stands behind its last dot, with something in front of the dot. -/
theorem splitExtension?_eq_some_iff {name stem extension : String} :
    splitExtension? name = some (stem, extension)
      ↔ name = stem ++ "." ++ extension ∧ stem ≠ "" ∧ '.' ∉ extension.toList := by
  constructor
  · intro h
    unfold splitExtension? at h
    simp only at h
    split at h
    · next back front hsplit =>
      split at h
      · cases h
      · rename_i hfront
        obtain ⟨rfl, rfl⟩ := Prod.mk.inj (Option.some.inj h)
        obtain ⟨hname, hback⟩ := splitAtFirst?_eq_some_iff.1 hsplit
        refine ⟨?_, by simpa using hfront, by simpa using hback⟩
        rw [← String.toList_inj, ← List.reverse_inj, hname]
        simp
    · cases h
  · rintro ⟨rfl, hstem, hdot⟩
    have hsplit : splitAtFirst? '.' (stem ++ "." ++ extension).toList.reverse
        = some (extension.toList.reverse, stem.toList.reverse) :=
      splitAtFirst?_eq_some_iff.2 ⟨by simp, by simpa using hdot⟩
    unfold splitExtension?
    simp only [hsplit]
    simp [hstem]

/-- Without its extension a name has no other characters. -/
theorem mem_of_mem_stem {name stem extension : String}
    (h : splitExtension? name = some (stem, extension)) {c : Char} (hc : c ∈ stem.toList) :
    c ∈ name.toList := by
  obtain ⟨rfl, -⟩ := splitExtension?_eq_some_iff.1 h
  simp [hc]

/-- With another extension a path has the names it has, but for the last one. -/
theorem names_withExtension {path name extension : String} {front : List String}
    (h : names path = front ++ [name]) (hup : name ≠ "..") (hslash : '/' ∉ extension.toList)
    (hlong : 2 ≤ extension.toList.length) :
    ∃ name', names (withExtension path extension) = front ++ [name'] ∧ name' ≠ ".."
      ∧ isAbsolute (withExtension path extension) = isAbsolute path := by
  have hnames : ∀ n ∈ front ++ [name], IsName n := fun n hn =>
    isName_of_mem_names (h.symm ▸ hn : n ∈ names path)
  let stem := ((splitExtension? name).map (·.1)).getD name
  have hstem : '/' ∉ stem.toList := by
    cases hsplit : splitExtension? name with
    | none => simpa [stem, hsplit] using (hnames name (by simp)).slash
    | some parts =>
      simp only [stem, hsplit]
      exact fun hc => (hnames name (by simp)).slash (mem_of_mem_stem hsplit hc)
  have hlength : 2 < (stem ++ "." ++ extension).toList.length := by
    simp only [String.toList_append, List.length_append]
    have hdot : ".".toList.length = 1 := rfl
    omega
  have hne {short : String} (hshort : short.toList.length ≤ 2) :
      stem ++ "." ++ extension ≠ short := by
    intro heq
    rw [heq] at hlength
    omega
  have hname : IsName (stem ++ "." ++ extension) := by
    refine ⟨?_, hne (by decide), hne (by decide)⟩
    simpa [String.toList_append, hslash] using hstem
  have hall : ∀ n ∈ front ++ [stem ++ "." ++ extension], IsName n := by
    intro n hn
    rcases List.mem_append.1 hn with hn | hn
    · exact hnames n (List.mem_append_left _ hn)
    · exact List.mem_singleton.1 hn ▸ hname
  have hfile : fileName? path = some name := by simp [fileName?, h, hup]
  have hpath : withExtension path extension
      = ofNames path (front ++ [stem ++ "." ++ extension]) := by
    rw [withExtension, hfile]
    simp only [withFileName, h, List.dropLast_concat]
    rfl
  rw [hpath]
  exact ⟨_, names_ofNames hall, hne (by decide), isAbsolute_ofNames hall⟩

end Path

end Marginalia
