import Marginalia.Proofs.Tree.Detours
import Marginalia.Proofs.Walk

/-!
Putting a text in the place of a file. A path that a file was read by ends with a name, and leads on
the way through no link that it ends at. So the text that is moved there is read by the same path,
whether a file stood at its end or a link to one.
-/

namespace Marginalia.FileTree

open Marginalia.Path (Ending)

variable {t t' written moved : FileTree} {follow : Ending → Bool} {e : Ending} {links : Nat}
  {here : Location} {names : List String} {d d' old new : Destination} {path text : String}

/-! ### Paths of files -/

/-- A path that does not end with a name ends as it says, whatever is followed. -/
theorem ending_of_goFrom_of_ne_name (he : e ≠ .name)
    (h : goFrom t follow links here names e = .ok d) : d.ending = e := by
  induction links using Nat.strongRecOn generalizing here names with
  | ind links ihLinks =>
  induction names generalizing here with
  | nil =>
    rw [goFrom_nil] at h
    rw [← Except.ok.inj h]
  | cons name rest ih =>
    rw [goFrom_cons] at h
    split at h
    · exact ih h
    split at h
    · cases h
    cases hplace : t.at? (here ++ [name]) with
    | none =>
      simp only [hplace] at h
      split at h <;> cases h
      rfl
    | some there =>
      cases there with
      | file n c =>
        simp only [hplace] at h
        split at h <;> cases h
        rfl
      | directory =>
        simp only [hplace] at h
        exact ih h
      | link target =>
        have hend : endingThrough target rest e = e := by simp [endingThrough, he]
        simp only [hplace, hend] at h
        split at h
        · rw [← Except.ok.inj h]
        · cases links with
          | zero => cases h
          | succ links => exact ihLinks links (Nat.lt_succ_self _) h

theorem locate_of_find {place : Location} {n : Nat} {c : Content}
    (h : t.find path = .ok (place, .file n c)) :
    t.locate path = .ok ⟨place, .name⟩ ∧ t.at? place = some (.file n c) := by
  unfold find at h
  cases hd : t.locate path with
  | error err => simp [hd, bind, Except.bind] at h
  | ok d =>
    simp only [hd, bind, Except.bind] at h
    split at h
    · cases h
    · cases h
    · next hplace =>
      split at h
      · next hend =>
        obtain ⟨rfl, rfl⟩ := Prod.mk.inj (Except.ok.inj h)
        exact ⟨by rw [← hend], hplace⟩
      · cases h

/-- A path that a text is read by ends with a name and leads to a file. -/
theorem locate_of_readText (h : t.readText path = .ok text) : Path.ending path = .name
    ∧ ∃ place n, t.locate path = .ok ⟨place, .name⟩
      ∧ t.at? place = some (.file n (.text text)) := by
  obtain ⟨place, n, hfind⟩ := readText_eq_ok h
  obtain ⟨hlocate, hfile⟩ := locate_of_find hfind
  refine ⟨?_, place, n, hlocate, hfile⟩
  by_contra hne
  rw [locate, go_of_checkPath (checkPath_of_go hlocate)] at hlocate
  exact hne (ending_of_goFrom_of_ne_name hne hlocate).symm

/-- A path that leads to a file leads, if a last link is left alone, to the file or to a link. -/
theorem exists_locateLast {n : Nat} {c : Content}
    (h : t.go follow path = .ok d) (hfile : t.at? d.place = some (.file n c)) :
    ∃ d', t.locateLast path = .ok d' ∧ ∃ x, t.at? d'.place = some x ∧ x ≠ .directory := by
  rcases t.go_follow follow path with hgo | ⟨d', target, hd', hlink⟩
  · exact ⟨d, hgo ▸ h, _, hfile, by simp⟩
  · exact ⟨d', hd', _, hlink, by simp⟩

/-! ### Ways that stay -/

/-- In trees that differ only at some places, none of them a directory, a way on which a last link
is left alone stays the same, or it leads on through a link at one of them. -/
theorem goFrom_stays_or_through {differ : Location → Prop}
    (hsame : ∀ q, ¬differ q → t'.at? q = t.at? q)
    (hdifferent : ∀ q, differ q → t.at? q ≠ some .directory ∧ t'.at? q ≠ some .directory)
    (hlast : goFrom t (fun _ => false) links here names e = .ok d)
    (hall : goFrom t (fun _ => true) links here names e = .ok d') :
    goFrom t' (fun _ => false) links here names e = .ok d
      ∨ ∃ q target l rest e', differ q ∧ t.at? q = some (.link target) ∧ (rest ≠ [] ∨ e' = .dots)
        ∧ goFrom t (fun _ => true) l (if Path.isAbsolute target then [] else q.dropLast)
          (Path.names target ++ rest) e' = .ok d' := by
  induction links using Nat.strongRecOn generalizing here names e with
  | ind links ihLinks =>
  induction names generalizing here with
  | nil =>
    rw [goFrom_nil] at hlast ⊢
    exact .inl hlast
  | cons name rest ih =>
    by_cases hup : name = ".."
    · rw [goFrom_cons, if_pos hup] at hlast hall ⊢
      exact ih hlast hall
    by_cases hend : rest = [] ∧ e ≠ .dots
    · -- at the last name it does not matter what stands there
      obtain ⟨rfl, he⟩ := hend
      rw [goFrom_single hup he fun _ _ _ => rfl] at hlast ⊢
      exact .inl hlast
    have hmore : rest ≠ [] ∨ e = .dots := by
      by_cases hrest : rest = []
      · exact .inr (by_contra fun he => hend ⟨hrest, he⟩)
      · exact .inl hrest
    have hnotLast : (rest.isEmpty && e != .dots) = false := by
      rcases hmore with hmore | hmore <;> simp [hmore]
    rw [goFrom_cons, if_neg hup] at hlast hall ⊢
    split at hlast
    · cases hlast
    next hlong =>
    rw [if_neg hlong] at hall ⊢
    simp only [hnotLast, Bool.false_and, Bool.false_eq_true, if_false] at hlast hall ⊢
    cases hplace : t.at? (here ++ [name]) with
    | none => simp [hplace] at hlast
    | some there =>
      cases there with
      | file n c => simp [hplace] at hlast
      | directory =>
        have hstays : ¬differ (here ++ [name]) := fun hd => (hdifferent _ hd).1 hplace
        simp only [hsame _ hstays, hplace] at hlast hall ⊢
        exact ih hlast hall
      | link target =>
        cases links with
        | zero => simp [hplace] at hlast
        | succ links =>
          simp only [hplace] at hlast hall
          by_cases hdiffer : differ (here ++ [name])
          · refine .inr ⟨_, target, links, rest, endingThrough target rest e, hdiffer, hplace, ?_,
              ?_⟩
            · exact hmore.imp_right fun he => by simp [endingThrough, he]
            · rwa [List.dropLast_concat]
          · simp only [hsame _ hdiffer, hplace]
            exact ihLinks links (Nat.lt_succ_self _) hlast hall

/-- A way to a file is no way to anything else, and cannot be gone on from. -/
theorem not_through_file
    (habove : ∀ q, t.at? q = some .directory → t.at? q.dropLast = some .directory)
    (hhere : t.at? here = some .directory) (h : goFrom t follow links here names e = .ok d)
    {n : Nat} {c : Content} (hfile : t.at? d.place = some (.file n c)) {rest : List String}
    {links' : Nat} {e' : Ending} (hmore : rest ≠ [] ∨ e' = .dots) :
    goFrom t (fun _ => true) links' here (names ++ rest) e' ≠ .ok d' := by
  intro hthrough
  rcases goFrom_append t links' here names with ⟨err, hfront⟩ | ⟨place, l, hfront⟩
  · rw [hfront _ _ _ hmore] at hthrough
    cases hthrough
  have hdots := hfront (fun _ => true) [] .dots (.inr rfl)
  rw [List.append_nil, goFrom_nil] at hdots
  have hdirectory : t.at? place = some .directory :=
    (directory_or_name_of_goFrom habove hhere hdots).resolve_right fun hname => hname.1 rfl
  have hsame : ∀ q : Location, ¬False → t.at? q = t.at? q := fun _ _ => rfl
  rcases place_eq_or_comesBy hsame (fun _ hlink => by cases hlink.symm.trans hfile) h hdots with
    hplace | ⟨_, hfalse, -⟩
  · obtain rfl : place = d.place := hplace
    cases hdirectory.symm.trans hfile
  · exact hfalse

/-- A path that a text is read by leads to the same place when something else than a directory comes
to stand there, and elsewhere when files come and go. -/
theorem locateLast_stays {differ : Location → Prop} (ht : t.IsGrounded)
    (hdir : t'.workingDirectory = t.workingDirectory)
    (hsame : ∀ q, ¬differ q → t'.at? q = t.at? q)
    (hdifferent : ∀ q, differ q → t.at? q ≠ some .directory ∧ t'.at? q ≠ some .directory)
    (hlink : ∀ q target, differ q → t.at? q = some (.link target) → q = new.place)
    (hnew : t.locateLast path = .ok new) (hread : t.readText path = .ok text) :
    t'.locateLast path = .ok new := by
  obtain ⟨hend, place, n, hlocate, hfile⟩ := locate_of_readText hread
  have hcheck := checkPath_of_go hnew
  have hlast := hnew
  have hall := hlocate
  rw [locateLast, go_of_checkPath hcheck] at hlast ⊢
  rw [locate, go_of_checkPath hcheck] at hall
  rw [startOf_eq hdir]
  rcases goFrom_stays_or_through hsame hdifferent hlast hall with
    hstays | ⟨q, target, l, rest, e', hq, hat, hmore, hthrough⟩
  · exact hstays
  · obtain rfl := hlink q target hq hat
    obtain ⟨l', e'', hway⟩ := way_of_link hend hnew hat rfl hlocate
    have hbase : t.at? (if Path.isAbsolute target then [] else new.place.dropLast)
        = some .directory := by
      split
      · exact at?_nil t
      · exact ht.above _ (by simp [hat])
    exact absurd hthrough (not_through_file (fun q hq => ht.above q (by simp [hq])) hbase hway
      hfile hmore)

/-! ### Files that are written beside others -/

/-- Where a path leads, a link at its end left alone. -/
def placeOf? (t : FileTree) (path : String) : Option Location :=
  (t.locateLast path).toOption.map (·.place)

theorem placeOf?_eq (h : t.locateLast path = .ok d) : t.placeOf? path = some d.place := by
  rw [placeOf?, h]
  rfl

/-- A text is written to a file that stands where the path leads, or behind a link there. -/
theorem locateLast_of_writeText (h : t.writeText path text = .ok t') :
    ∃ d, t.locateLast path = .ok d ∧ t'.locateLast path = .ok d ∧ t.at? d.place ≠ some .directory
      ∧ ∃ x, t'.at? d.place = some x ∧ x ≠ .directory := by
  obtain ⟨d, n, hgo, hwrites⟩ := writeText_eq_ok h
  have hgo' := go_mono hwrites.sameWays.forth hgo
  obtain ⟨d', hd', x, hx, hne⟩ := exists_locateLast hgo' hwrites.here
  refine ⟨d', go_mono hwrites.sameWays.back hd', hd', fun hdirectory => hne ?_, x, hx, hne⟩
  exact Option.some.inj (hx.symm.trans (hwrites.sameWays.forth.directory _ hdirectory))

/-- Where no link stands and no file that has another name as well, nothing else is written to. -/
theorem writeText_alone (hnumbered : ∀ q n c, t.at? q = some (.file n c) → n < t.nextSerial)
    (h : t.writeText path text = .ok t') (hd : t.locateLast path = .ok d)
    (halone : t.IsAlone d.place) :
    (∃ n, t'.at? d.place = some (.file n (.text text)))
      ∧ (∀ q, q ≠ d.place → t'.at? q = t.at? q) ∧ t.SameWays t' := by
  obtain ⟨d', n, hgo, hwrites⟩ := writeText_eq_ok h
  have hplace : d'.place = d.place := by
    rcases t.go_follow (· != .slash) path with hsame | ⟨d'', target, hd'', hlink⟩
    · rw [Except.ok.inj ((hsame.symm.trans hgo).symm.trans hd)]
    · obtain rfl := Except.ok.inj (hd''.symm.trans hd)
      exact absurd hlink (halone.1 target)
  rw [hplace] at hwrites
  refine ⟨⟨n, hwrites.here⟩, fun q hq => ?_, hwrites.sameWays⟩
  rw [hwrites.elsewhere q hq]
  refine map_change_eq_self fun c hfile => ?_
  rcases hwrites.serial with ⟨⟨c', hc'⟩, -⟩ | ⟨-, rfl, -⟩
  · exact hq (halone.2 n c' hc' q c hfile)
  · exact absurd (hnumbered q _ c hfile) (Nat.lt_irrefl _)

/-- What stands at the end of a path can be removed, unless it is a directory. -/
theorem remove_eq_ok {x : Entry} (hd : t.locateLast path = .ok d) (hend : d.ending = .name)
    (hx : t.at? d.place = some x) (hne : x ≠ .directory) :
    t.remove path = .ok (t.erase d.place) := by
  unfold remove
  simp only [hd, bind, Except.bind, hx, hend]
  cases x with
  | directory => exact absurd rfl hne
  | file n c => rfl
  | link target => rfl

end Marginalia.FileTree
