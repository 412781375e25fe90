import Marginalia.Header
import Marginalia.Proofs.LinePattern.Groups

/-!
The names on a line. The shapes give names and scopes of word characters, dollar signs and tildes,
so neither has a colon in it. The qualified name of a C++ definition has some, but it is cut at the
last two pairs of them. Every name has a character that can be seen.
-/

namespace Marginalia

open Pattern Shape Text

/-- A name without colons. -/
def IsPlain (name : String) : Prop := ':' ∉ name.toList

theorem isPlain_get {p : Pattern} {line : Line} {found : Captures}
    (h : p.captures? line = some found) {i : Nat}
    (hp : (p.bodies i).all (avoids ':') = true) : IsPlain (found.get i) :=
  not_mem_get h hp

/-! ### Characters that can be seen -/

theorem isBlank_of_graphic {c : Char} (h : 33 ≤ c.toNat) (h' : c.toNat < 133) :
    isBlank c = false := by
  have hturns : ∀ n < 133, 33 ≤ n → blankSet.turns.countP (· ≤ n) = 4 := by decide
  simp [isBlank, CodePointSet.mem, hturns c.toNat h' h]

theorem isBlank_of_isNameStart {c : Char} (h : isNameStart c = true) : isBlank c = false := by
  simp only [isNameStart, isLetter, Bool.or_eq_true, Bool.and_eq_true, decide_eq_true_eq,
    beq_iff_eq, Char.le_def, UInt32.le_iff_toNat_le] at h
  rcases h with (⟨h, h'⟩ | ⟨h, h'⟩) | rfl
  · exact isBlank_of_graphic (Nat.le_trans (by decide) h) (Nat.lt_of_le_of_lt h' (by decide))
  · exact isBlank_of_graphic (Nat.le_trans (by decide) h) (Nat.lt_of_le_of_lt h' (by decide))
  · decide

/-- Something of the text can be seen. -/
def IsVisible (text : List Char) : Prop := ∃ c ∈ text, isBlank c = false

theorem isBlankString_of_isVisible {text : List Char} (h : IsVisible text) :
    isBlankString (String.ofList text) = false := by
  obtain ⟨c, hc, hvisible⟩ := h
  rw [isBlankString, allBlank, String.toList_ofList, List.all_eq_false]
  exact ⟨c, hc, by simp [hvisible]⟩

/-- What starts with a character of a class has one. -/
theorem exists_mem_of_takes_one {p : Char → Bool} {rest : Pattern} {text : List Char}
    {gs : List (Nat × List Char)} (h : (seq (one p) rest).Takes text gs) :
    ∃ c ∈ text, p c = true := by
  cases h with
  | seq hfirst _ =>
    cases hfirst with
    | one hc => exact ⟨_, List.mem_cons_self, hc⟩

theorem isVisible_of_takes_ident {text : List Char} {gs : List (Nat × List Char)}
    (h : ident.Takes text gs) : IsVisible text := by
  obtain ⟨c, hc, hstart⟩ := exists_mem_of_takes_one h
  exact ⟨c, hc, isBlank_of_isNameStart hstart⟩

theorem isVisible_of_takes_dollarIdent {text : List Char} {gs : List (Nat × List Char)}
    (h : dollarIdent.Takes text gs) : IsVisible text := by
  obtain ⟨c, hc, hstart⟩ := exists_mem_of_takes_one h
  refine ⟨c, hc, ?_⟩
  rcases Bool.or_eq_true_iff.1 hstart with hstart | hdollar
  · exact isBlank_of_isNameStart hstart
  · rw [beq_iff_eq.1 hdollar]
    decide

/-! ### Qualified names -/

theorem scan_of_not_mem {tail seen rest : List Char} (htail : ':' ∉ tail) :
    lastQualifier?.scan seen (tail ++ rest) = lastQualifier?.scan (tail.reverse ++ seen) rest := by
  induction tail generalizing seen with
  | nil => rfl
  | cons c tail ih =>
    rw [List.mem_cons, not_or] at htail
    rw [List.cons_append, lastQualifier?.scan, ih htail.2, List.reverse_cons, List.append_assoc]
    · rfl
    · rintro - rfl
      exact absurd rfl htail.1

/-- A text is cut at a pair of colons that no colon follows. -/
theorem lastQualifier?_append (front : List Char) {tail : List Char} (htail : ':' ∉ tail) :
    lastQualifier? (front ++ ':' :: ':' :: tail) = some (front, tail) := by
  have hrev : (front ++ ':' :: ':' :: tail).reverse
      = tail.reverse ++ ':' :: ':' :: front.reverse := by simp
  rw [lastQualifier?, hrev, scan_of_not_mem (by simpa using htail), List.reverse_reverse,
    List.append_nil, lastQualifier?.scan, List.reverse_reverse]

theorem lastQualifier?_of_not_mem {text : List Char} (h : ':' ∉ text) :
    lastQualifier? text = none := by
  rw [lastQualifier?, ← List.append_nil text.reverse, scan_of_not_mem (by simpa using h),
    lastQualifier?.scan]

/-- The pattern of a qualifier. -/
def qualifier : Pattern := seq ident (word "::")

/-- Qualifiers are names, each with a pair of colons behind it. -/
theorem exists_of_takes_qualifiers {text : List Char} {gs : List (Nat × List Char)}
    (h : (many qualifier).Takes text gs) :
    ∃ names : List (List Char), (∀ name ∈ names, ':' ∉ name)
      ∧ text = names.flatMap (· ++ [':', ':']) := by
  generalize hp : many qualifier = p at h
  induction h with
  | none => exact ⟨[], by simp, rfl⟩
  | again hbody _ _ ih =>
    obtain rfl := Pattern.many.inj hp
    obtain ⟨names, hnames, rfl⟩ := ih rfl
    cases hbody with
    | @seq _ _ name colons _ _ hname hcolons =>
      cases hcolons
      refine ⟨name :: names, List.forall_mem_cons.2 ⟨hname.not_mem (by decide), hnames⟩, rfl⟩
  | _ => cases hp

/-- The name of a qualified definition is what stands behind its qualifiers, and the innermost of
its scopes is plain. -/
theorem ofQualified_eq (names : List (List Char)) (tail : List Char)
    (hnames : ∀ name ∈ names, ':' ∉ name) (htail : ':' ∉ tail) (params : String) :
    ∃ owner, Header.ofQualified (String.ofList (names.flatMap (· ++ [':', ':']) ++ tail)) params
        = ⟨String.ofList tail, params, owner⟩
      ∧ ∀ scope ∈ owner, IsPlain scope := by
  rcases List.eq_nil_or_concat names with rfl | ⟨front, name, rfl⟩
  · exact ⟨none, by simp [Header.ofQualified, lastQualifier?_of_not_mem htail], by simp⟩
  · have hname : ':' ∉ name := hnames name (by simp)
    have hcut : lastQualifier? ((front ++ [name]).flatMap (· ++ [':', ':']) ++ tail)
        = some (front.flatMap (· ++ [':', ':']) ++ name, tail) := by
      rw [← lastQualifier?_append _ htail]
      simp
    have hinner : ((lastQualifier? (front.flatMap (· ++ [':', ':']) ++ name)).map (·.2)).getD
        (front.flatMap (· ++ [':', ':']) ++ name) = name := by
      rcases List.eq_nil_or_concat front with rfl | ⟨front', name', rfl⟩
      · simp [lastQualifier?_of_not_mem hname]
      · have hcut' : lastQualifier? ((front' ++ [name']).flatMap (· ++ [':', ':']) ++ name)
            = some (front'.flatMap (· ++ [':', ':']) ++ name', name) := by
          rw [← lastQualifier?_append _ hname]
          simp
        rw [List.concat_eq_append, hcut']
        rfl
    refine ⟨some (String.ofList name), ?_, by simp [IsPlain, hname]⟩
    rw [List.concat_eq_append]
    simp only [Header.ofQualified, String.toList_ofList, hcut, hinner]

/-! ### Headers -/

/-- What the names on a definition line are like: neither the name nor the scope that the line names
has a colon in it, and a name that is not empty can be seen. -/
structure Header.IsPlain (h : Header) : Prop where
  name : Marginalia.IsPlain h.name
  owner : ∀ owner ∈ h.owner, Marginalia.IsPlain owner
  visible : h.name ≠ "" → isBlankString h.name = false

theorem isPlain_ofGroups {p : Pattern} {line : Line} {found : Captures}
    (h : p.captures? line = some found) {name : Nat} (params : Nat) {owner : Option String}
    (howner : ∀ scope ∈ owner, IsPlain scope) (hp : (p.bodies name).all (avoids ':') = true)
    (hseen : ∀ body ∈ p.bodies name, ∀ {text gs}, body.Takes text gs → IsVisible text) :
    (Header.ofGroups found name params owner).IsPlain where
  name := isPlain_get h hp
  owner := howner
  visible hne := by
    rw [Header.ofGroups, Captures.get] at hne ⊢
    cases hget : found.get? name with
    | none => exact absurd (by rw [hget]; rfl) hne
    | some text =>
      obtain ⟨body, hbody, gs, htakes⟩ := exists_body_of_get? h hget
      exact isBlankString_of_isVisible (hseen body hbody htakes)

theorem isPlain_receiver {line : Line} {found : Captures}
    (h : goFunction.captures? line = some found) :
    ∀ scope ∈ (found.get? 1).map String.ofList, IsPlain scope := by
  intro scope hscope
  obtain ⟨receiver, hreceiver, rfl⟩ := Option.map_eq_some_iff.1 hscope
  have hplain := isPlain_get h (i := 1) (by decide)
  rwa [Captures.get, hreceiver] at hplain

theorem isPlain_cppFunction {line : Line} {found : Captures}
    (h : cppFunction.captures? line = some found) :
    (Header.ofQualified (found.get 1) (found.get 2)).IsPlain := by
  rw [Captures.get]
  cases hget : found.get? 1 with
  | none =>
    obtain ⟨owner, hheader, howner⟩ := ofQualified_eq [] [] (by simp) (by simp) (found.get 2)
    exact hheader ▸ ⟨by simp [IsPlain], howner, fun hne => absurd rfl hne⟩
  | some text =>
    obtain ⟨body, hbody, gs, htakes⟩ := exists_body_of_get? h hget
    obtain rfl := List.mem_singleton.1
      (show body ∈ [seq (many qualifier) (seq (optional (mark '~')) ident)] from hbody)
    cases htakes with
    | @seq _ _ front tail _ _ hfront htail =>
      obtain ⟨names, hnames, rfl⟩ := exists_of_takes_qualifiers hfront
      have hcolon : ':' ∉ tail := htail.not_mem (by decide)
      obtain ⟨owner, hheader, howner⟩ := ofQualified_eq names tail hnames hcolon (found.get 2)
      refine hheader ▸ ⟨by simpa [IsPlain] using hcolon, howner, fun _ => ?_⟩
      cases htail with
      | seq _ hname =>
        obtain ⟨c, hc, hvisible⟩ := isVisible_of_takes_ident hname
        exact isBlankString_of_isVisible ⟨c, List.mem_append_right _ hc, hvisible⟩

theorem isPlain_ofShapes? {l : Language} {line : Line} {h : Header}
    (hl : Header.ofShapes? l line = some h) : h.IsPlain := by
  cases l with
  | python =>
    obtain ⟨found, hfound, rfl⟩ := Option.map_eq_some_iff.1 hl
    exact isPlain_ofGroups hfound 2 (by simp) (by decide)
      (List.forall_mem_singleton.2 isVisible_of_takes_ident)
  | java =>
    simp only [Header.ofShapes?] at hl
    split at hl
    · cases hl
    · next found hfound =>
      split at hl
      · cases hl
      · obtain rfl := Option.some.inj hl
        exact isPlain_ofGroups hfound 3 (by simp) (by decide)
          (List.forall_mem_singleton.2 isVisible_of_takes_dollarIdent)
  | javascript | typescript =>
    obtain ⟨found, hfound, rfl⟩ := Option.map_eq_some_iff.1 hl
    obtain ⟨shape, hshape, hfound⟩ := List.exists_of_findSome?_eq_some hfound
    simp only [List.mem_cons, List.not_mem_nil, or_false] at hshape
    rcases hshape with rfl | rfl | rfl <;>
      exact isPlain_ofGroups hfound 2 (by simp) (by decide)
        (List.forall_mem_singleton.2 isVisible_of_takes_dollarIdent)
  | go =>
    obtain ⟨found, hfound, rfl⟩ := Option.map_eq_some_iff.1 hl
    exact isPlain_ofGroups hfound 3 (isPlain_receiver hfound) (by decide)
      (List.forall_mem_singleton.2 isVisible_of_takes_ident)
  | cpp =>
    obtain ⟨found, hfound, rfl⟩ := Option.map_eq_some_iff.1 hl
    exact isPlain_cppFunction hfound
  | rust =>
    obtain ⟨found, hfound, rfl⟩ := Option.map_eq_some_iff.1 hl
    exact isPlain_ofGroups hfound 2 (by simp) (by decide)
      (List.forall_mem_singleton.2 isVisible_of_takes_ident)

theorem Header.isPlain_of_ofLine? {l : Language} {line : Line} {h : Header}
    (hl : Header.ofLine? l line = some h) : h.IsPlain := by
  unfold Header.ofLine? at hl
  split at hl
  · cases hl
  · exact isPlain_ofShapes? (Option.filter_eq_some_iff.1 hl).1

/-- The name on a definition line can be seen. -/
theorem Header.isVisible_of_ofLine? {l : Language} {line : Line} {h : Header}
    (hl : Header.ofLine? l line = some h) : isBlankString h.name = false := by
  refine (Header.isPlain_of_ofLine? hl).visible fun hempty => ?_
  unfold Header.ofLine? at hl
  split at hl
  · cases hl
  · simpa [hempty] using (Option.filter_eq_some_iff.1 hl).2

/-- A scope that a line opens has a plain name. -/
theorem isPlain_of_scopeOfLine? {l : Language} {line : Line} {scope : String}
    (h : scopeOfLine? l line = some scope) : IsPlain scope := by
  unfold scopeOfLine? at h
  split at h
  · cases h
  · obtain ⟨found, hfound, rfl⟩ := Option.map_eq_some_iff.1 h
    obtain ⟨shape, hshape, hfound⟩ := Option.bind_eq_some_iff.1 hfound
    cases l <;> cases hshape <;> exact isPlain_get hfound (by decide)

end Marginalia
