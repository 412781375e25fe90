import Mathlib.Data.Option.Basic
import Marginalia.Proofs.Tree.Thinning

/-!
Trees that resemble each other. The same stands at each place of both, except that a file may have
another serial number, the same one under all its names, and that it may hold something else where
that is allowed. Whatever is asked of two such trees is answered in the same way, and they resemble
each other again.
-/

namespace Marginalia

/-- The same stands there, except that files have numbers that are paired with each other and may
hold what is allowed for the first one. -/
inductive Entry.Matches (pairs : Nat → Nat → Prop) (alike : Nat → Content → Content → Prop) :
    Entry → Entry → Prop
  | file {n m : Nat} {c c' : Content} (paired : pairs n m) (allowed : alike n c c') :
      Matches pairs alike (.file n c) (.file m c')
  | directory : Matches pairs alike .directory .directory
  | link (target : String) : Matches pairs alike (.link target) (.link target)

namespace FileTree

open Marginalia.Path (Ending)

/-- The same stands at each place of both trees when serial numbers are exchanged for those that
they are paired with. -/
structure MatchedBy (pairs : Nat → Nat → Prop) (alike : Nat → Content → Content → Prop)
    (t t' : FileTree) : Prop where
  entry : ∀ q, Option.Rel (Entry.Matches pairs alike) (t.at? q) (t'.at? q)
  right_unique : ∀ {n m m'}, pairs n m → pairs n m' → m = m'
  left_unique : ∀ {n n' m}, pairs n m → pairs n' m → n = n'
  earlier : ∀ {n m}, pairs n m → n < t.nextSerial ∧ m < t'.nextSerial
  workingDirectory : t.workingDirectory = t'.workingDirectory

/-- The trees are the same but for the serial numbers of files and for what is allowed to differ in
what they hold. -/
def Resembles (alike : Nat → Content → Content → Prop) (t t' : FileTree) : Prop :=
  ∃ pairs, MatchedBy pairs alike t t'

/-- Two attempts have failed for the same reason, or have led to trees that resemble each other. -/
inductive ResultsResemble (alike : Nat → Content → Content → Prop) :
    Except FileError FileTree → Except FileError FileTree → Prop
  | error (e : FileError) : ResultsResemble alike (.error e) (.error e)
  | ok {t t' : FileTree} (resemble : t.Resembles alike t') : ResultsResemble alike (.ok t) (.ok t')

variable {pairs : Nat → Nat → Prop} {alike : Nat → Content → Content → Prop} {t t' : FileTree}

/-! ### Looking -/

namespace MatchedBy

variable {follow : Ending → Bool} {e : Ending}
  {expand expand' : Location → List String → Ending → Except FileError Destination}

theorem goAlong_eq (h : MatchedBy pairs alike t t')
    (hexpand : ∀ here names e, expand here names e = expand' here names e) (here : Location)
    (names : List String) :
    goAlong t follow e expand here names = goAlong t' follow e expand' here names := by
  induction names generalizing here with
  | nil => rfl
  | cons name rest ih =>
    rw [goAlong_cons, goAlong_cons]
    have hentry := h.entry (here ++ [name])
    generalize t.at? (here ++ [name]) = there, t'.at? (here ++ [name]) = there' at hentry
    simp only [ih]
    cases hentry with
    | none => rfl
    | some hentry =>
      cases hentry with
      | file paired allowed => rfl
      | directory => rfl
      | link target => simp only [hexpand]

theorem goFrom_eq (h : MatchedBy pairs alike t t') (links : Nat) (here : Location)
    (names : List String) (e : Ending) :
    goFrom t follow links here names e = goFrom t' follow links here names e := by
  induction links generalizing here names e with
  | zero => exact h.goAlong_eq (fun _ _ _ => rfl) here names
  | succ links ih => exact h.goAlong_eq ih here names

/-- A path leads to the same place in both trees. -/
theorem go_eq (h : MatchedBy pairs alike t t') (path : String) :
    t.go follow path = t'.go follow path := by
  cases hcheck : checkPath path with
  | error err => rw [go_of_checkPath_error hcheck, go_of_checkPath_error hcheck]
  | ok checked =>
    rw [go_of_checkPath hcheck, go_of_checkPath hcheck, h.goFrom_eq,
      startOf_eq h.workingDirectory]

theorem directory_iff (h : MatchedBy pairs alike t t') (q : Location) :
    t.at? q = some .directory ↔ t'.at? q = some .directory := by
  have hentry := h.entry q
  generalize t.at? q = there, t'.at? q = there' at hentry
  cases hentry with
  | none => rfl
  | some hentry => cases hentry <;> simp

theorem isDirectory_eq (h : MatchedBy pairs alike t t') (path : String) :
    t.isDirectory path = t'.isDirectory path := by
  rw [Bool.eq_iff_iff, isDirectory_iff, isDirectory_iff]
  unfold locate
  simp only [h.go_eq, h.directory_iff]

/-! ### Changing -/

theorem put (h : MatchedBy pairs alike t t') {l : Location} (hl : l ≠ []) {e e' : Entry}
    (he : e.Matches pairs alike e') : MatchedBy pairs alike (t.put l e) (t'.put l e') where
  entry q := by
    rw [at?_put hl, at?_put hl]
    split
    · exact .some he
    · exact h.entry q
  right_unique := h.right_unique
  left_unique := h.left_unique
  earlier := h.earlier
  workingDirectory := h.workingDirectory

theorem erase (h : MatchedBy pairs alike t t') {l : Location} (hl : l ≠ []) :
    MatchedBy pairs alike (t.erase l) (t'.erase l) where
  entry q := by
    rw [at?_erase hl, at?_erase hl]
    split
    · exact .none
    · exact h.entry q
  right_unique := h.right_unique
  left_unique := h.left_unique
  earlier := h.earlier
  workingDirectory := h.workingDirectory

/-- Files that are paired may be changed alike. -/
theorem change (h : MatchedBy pairs alike t t') {n m : Nat} (hpaired : pairs n m)
    {f f' : Content → Content} (hf : ∀ c c', alike n c c' → alike n (f c) (f' c')) :
    MatchedBy pairs alike (t.change n f) (t'.change m f') where
  entry q := by
    rw [at?_change, at?_change]
    have hentry := h.entry q
    generalize t.at? q = there, t'.at? q = there' at hentry
    cases hentry with
    | none => exact .none
    | some hentry =>
      cases hentry with
      | directory => exact .some .directory
      | link target => exact .some (.link target)
      | @file k l c c' paired allowed =>
        -- one of the two is the file that is changed if the other one is
        by_cases hk : k = n
        · subst hk
          obtain rfl := h.right_unique paired hpaired
          simpa [Entry.change] using Option.Rel.some (.file paired (hf c c' allowed))
        · have hl : l ≠ m := by
            rintro rfl
            exact hk (h.left_unique paired hpaired)
          simpa [Entry.change, hk, hl] using Option.Rel.some (.file paired allowed)
  right_unique := h.right_unique
  left_unique := h.left_unique
  earlier := h.earlier
  workingDirectory := h.workingDirectory

/-- A file that comes to both trees has the next number in each of them. -/
theorem put_new (h : MatchedBy pairs alike t t') {l : Location} (hl : l ≠ []) {c : Content}
    (hc : alike t.nextSerial c c) :
    MatchedBy (fun n m => pairs n m ∨ n = t.nextSerial ∧ m = t'.nextSerial) alike
      { t.put l (.file t.nextSerial c) with nextSerial := t.nextSerial + 1 }
      { t'.put l (.file t'.nextSerial c) with nextSerial := t'.nextSerial + 1 } where
  entry q := by
    change Option.Rel _ ((t.put l (.file t.nextSerial c)).at? q)
      ((t'.put l (.file t'.nextSerial c)).at? q)
    rw [at?_put hl, at?_put hl]
    split
    · exact .some (.file (.inr ⟨rfl, rfl⟩) hc)
    have hentry := h.entry q
    generalize t.at? q = there, t'.at? q = there' at hentry
    cases hentry with
    | none => exact .none
    | some hentry =>
      cases hentry with
      | file paired allowed => exact .some (.file (.inl paired) allowed)
      | directory => exact .some .directory
      | link target => exact .some (.link target)
  right_unique {n m m'} hm hm' := by
    rcases hm with hm | ⟨rfl, rfl⟩ <;> rcases hm' with hm' | ⟨hn, rfl⟩
    · exact h.right_unique hm hm'
    · exact absurd (h.earlier hm).1 (by omega)
    · exact absurd (h.earlier hm').1 (by omega)
    · rfl
  left_unique {n n' m} hn hn' := by
    rcases hn with hn | ⟨rfl, rfl⟩ <;> rcases hn' with hn' | ⟨rfl, hm⟩
    · exact h.left_unique hn hn'
    · exact absurd (h.earlier hn).2 (by omega)
    · exact absurd (h.earlier hn').2 (by omega)
    · rfl
  earlier {n m} hpaired := by
    rcases hpaired with hpaired | ⟨rfl, rfl⟩
    · exact (h.earlier hpaired).imp Nat.lt_succ_of_lt Nat.lt_succ_of_lt
    · exact ⟨Nat.lt_succ_self _, Nat.lt_succ_self _⟩
  workingDirectory := h.workingDirectory

end MatchedBy

/-! ### What can be asked of a tree -/

namespace Resembles

/-- A tree resembles itself. -/
theorem refl (halike : ∀ n c, alike n c c)
    (hnumbered : ∀ q n c, t.at? q = some (.file n c) → n < t.nextSerial) : t.Resembles alike t := by
  refine ⟨fun n m => n = m ∧ n < t.nextSerial, fun q => ?_, ?_, ?_, ?_, rfl⟩
  · cases hq : t.at? q with
    | none => exact .none
    | some e =>
      refine .some ?_
      cases e with
      | file n c => exact .file ⟨rfl, hnumbered q n c hq⟩ (halike n c)
      | directory => exact .directory
      | link target => exact .link target
  · exact fun hm hm' => hm.1.symm.trans hm'.1
  · exact fun hn hn' => hn.1.trans hn'.1.symm
  · exact fun hpaired => ⟨hpaired.2, hpaired.1 ▸ hpaired.2⟩

/-- Writing a text comes to the same, if what is the same may always be held. -/
theorem writeText (halike : ∀ n c, alike n c c) (h : t.Resembles alike t') (path text : String) :
    ResultsResemble alike (t.writeText path text) (t'.writeText path text) := by
  obtain ⟨pairs, h⟩ := h
  unfold FileTree.writeText openFile
  rw [h.go_eq]
  cases t'.go (· != .slash) path with
  | error e => exact .error e
  | ok d =>
  simp only [bind, Except.bind]
  by_cases hend : d.ending = .slash
  · simp only [hend, if_true]
    exact .error _
  simp only [hend, if_false]
  have hentry := h.entry d.place
  generalize hthere : t.at? d.place = there, t'.at? d.place = there' at hentry ⊢
  cases hentry with
  | none =>
    have hplace : d.place ≠ [] := place_ne_nil (t := t) (by simp [hthere])
    exact .ok ⟨_, (h.put_new hplace (halike _ _)).change (.inr ⟨rfl, rfl⟩)
      fun _ _ _ => halike _ _⟩
  | some hentry =>
    cases hentry with
    | file paired allowed => exact .ok ⟨_, h.change paired fun _ _ _ => halike _ _⟩
    | directory => exact .error _
    | link target => exact .error _

/-- Moving an entry comes to the same. -/
theorem rename (h : t.Resembles alike t') (source target : String) :
    ResultsResemble alike (t.rename source target) (t'.rename source target) := by
  obtain ⟨pairs, h⟩ := h
  unfold FileTree.rename locateLast
  rw [h.go_eq, h.go_eq]
  cases t'.go (fun _ => false) source with
  | error e => exact .error e
  | ok old =>
  cases t'.go (fun _ => false) target with
  | error e => exact .error e
  | ok new =>
  simp only [bind, Except.bind]
  split
  · exact .error _
  have hold := h.entry old.place
  have hthere := h.directory_iff new.place
  generalize hplace : t.at? old.place = e, t'.at? old.place = e' at hold ⊢
  have hmove {e e' : Entry} (he : e.Matches pairs alike e') (hne : e ≠ .directory)
      (hplace : t.at? old.place = some e) (hnew : t.at? new.place ≠ some .directory) :
      ((t.erase old.place).put new.place e).Resembles alike
        ((t'.erase old.place).put new.place e') :=
    ⟨pairs, (h.erase (place_ne_nil (t := t) (by simpa [hplace] using hne))).put
      (place_ne_nil hnew) he⟩
  cases hold with
  | none => exact .error _
  | some hold =>
    have hmatches := hold
    cases hold with
    | directory => exact .error _
    | _ =>
      simp only [← hthere]
      split
      · exact .error _
      split
      · exact .error _
      split
      · exact .ok ⟨pairs, h⟩
      · exact .ok (hmove hmatches (by simp) hplace ‹_›)

theorem makeDirectory (h : t.Resembles alike t') (path : String) :
    ResultsResemble alike (t.makeDirectory path) (t'.makeDirectory path) := by
  obtain ⟨pairs, h⟩ := h
  unfold FileTree.makeDirectory locateLast
  rw [h.go_eq, h.isDirectory_eq]
  cases t'.go (fun _ => false) path with
  | error e => exact .error e
  | ok d =>
  simp only [bind, Except.bind]
  have hentry := h.entry d.place
  generalize hthere : t.at? d.place = there, t'.at? d.place = there' at hentry ⊢
  cases hentry with
  | none => exact .ok ⟨pairs, h.put (place_ne_nil (t := t) (by simp [hthere])) .directory⟩
  | some hentry =>
    dsimp only
    split
    · exact .ok ⟨pairs, h⟩
    · exact .error _

theorem makeDirectories (h : t.Resembles alike t') (start : String) (names : List String) :
    ResultsResemble alike (t.makeDirectories start names) (t'.makeDirectories start names) := by
  induction names with
  | nil => exact .ok h
  | cons name above ih =>
    rw [makeDirectories_cons, makeDirectories_cons]
    have hone := h.makeDirectory (Path.ofNames start (name :: above).reverse)
    generalize t.makeDirectory (Path.ofNames start (name :: above).reverse) = made,
      t'.makeDirectory (Path.ofNames start (name :: above).reverse) = made' at hone
    cases hone with
    | ok resemble => exact .ok resemble
    | error e =>
      cases e with
      | notFound =>
        generalize t.makeDirectories start above = above₁,
          t'.makeDirectories start above = above₂ at ih
        cases ih with
        | error e => exact .error e
        | ok resemble => exact resemble.makeDirectory _
      | _ => exact .error _

theorem makeParents (h : t.Resembles alike t') (path : String) :
    ResultsResemble alike (t.makeParents path) (t'.makeParents path) := h.makeDirectories _ _

end Resembles

end FileTree

end Marginalia
