import Marginalia.Proofs.Path
import Marginalia.Proofs.Tree.Ways

/-!
Ways through two trees that differ at some places. A way ends in both trees at one place, or it
comes by a place where they differ. Where everything stands in a directory, a way ends at a
directory or at a name in one.
-/

namespace Marginalia.FileTree

open Marginalia.Path (Ending)

variable {t t' : FileTree} {follow : Ending → Bool} {e e' : Ending} {links links' : Nat}
  {here : Location} {names : List String} {d d' : Destination}

/-- One name of a path, at a link with one link less to go through. -/
theorem goFrom_cons (name : String) (rest : List String) :
    goFrom t follow links here (name :: rest) e
      = if name = ".." then goFrom t follow links here.dropLast rest e
        else if isLong name then .error .nameTooLong
        else match t.at? (here ++ [name]) with
          | none => if rest.isEmpty && e != .dots then .ok ⟨here ++ [name], e⟩ else .error .notFound
          | some .directory => goFrom t follow links (here ++ [name]) rest e
          | some (.file ..) =>
            if rest.isEmpty && e != .dots then .ok ⟨here ++ [name], e⟩ else .error .notADirectory
          | some (.link target) =>
            if rest.isEmpty && e != .dots && !follow e then .ok ⟨here ++ [name], e⟩
            else match links with
              | 0 => .error .tooManyLinks
              | links + 1 => goFrom t follow links (if Path.isAbsolute target then [] else here)
                (Path.names target ++ rest) (endingThrough target rest e) := by
  cases links <;> rfl

/-! ### Places on the way -/

/-- A way on which all links are followed comes by a place: a name of it leads there. -/
def ComesBy (t : FileTree) (links : Nat) (place : Location) (d : Destination) : Prop :=
  ∃ l ≤ links, ∃ here name rest e, here ++ [name] = place ∧ name ≠ ".." ∧ isLong name = false
    ∧ goFrom t (fun _ => true) l here (name :: rest) e = .ok d

theorem ComesBy.mono {place : Location} (h : t.ComesBy links place d) (hle : links ≤ links') :
    t.ComesBy links' place d := by
  obtain ⟨l, hl, hway⟩ := h
  exact ⟨l, Nat.le_trans hl hle, hway⟩

/-- A way that comes by a place where no directory and no link stands ends there. -/
theorem ComesBy.place_eq {place : Location} (h : t.ComesBy links place d)
    (hdirectory : t.at? place ≠ some .directory)
    (hlink : ∀ target, t.at? place ≠ some (.link target)) : d.place = place := by
  obtain ⟨l, -, here, name, rest, e, rfl, hup, hlong, h⟩ := h
  rw [goFrom_cons, if_neg hup, if_neg (by simp [hlong])] at h
  cases hplace : t.at? (here ++ [name]) with
  | none =>
    simp only [hplace] at h
    split at h
    · rw [← Except.ok.inj h]
    · cases h
  | some there =>
    cases there with
    | file n c =>
      simp only [hplace] at h
      split at h
      · rw [← Except.ok.inj h]
      · cases h
    | directory => exact absurd hplace hdirectory
    | link target => exact absurd hplace (hlink target)

/-- A way that comes by a link goes on with its target. -/
theorem ComesBy.through {place : Location} {target : String} (h : t.ComesBy links place d)
    (hlink : t.at? place = some (.link target)) : ∃ l < links, ∃ rest e,
      goFrom t (fun _ => true) l (if Path.isAbsolute target then [] else place.dropLast)
        (Path.names target ++ rest) e = .ok d := by
  obtain ⟨l, hl, here, name, rest, e, rfl, hup, hlong, h⟩ := h
  rw [goFrom_cons, if_neg hup, if_neg (by simp [hlong])] at h
  simp only [hlink, Bool.not_true, Bool.and_false, Bool.false_eq_true, if_false] at h
  cases l with
  | zero => cases h
  | succ l =>
    rw [List.dropLast_concat]
    exact ⟨l, hl, rest, _, h⟩

/-- In trees that differ only at some places a way ends at one place, or it comes by one of
those. -/
theorem place_eq_or_comesBy {differ : Location → Prop}
    (hsame : ∀ q, ¬differ q → t'.at? q = t.at? q)
    (hend : ∀ target, t.at? d.place = some (.link target) → differ d.place)
    (h : goFrom t follow links here names e = .ok d)
    (h' : goFrom t' (fun _ => true) links' here names e' = .ok d') :
    d'.place = d.place ∨ ∃ q, differ q ∧ t'.ComesBy links' q d' := by
  induction links' using Nat.strongRecOn generalizing links here names e e' with
  | ind links' ihLinks =>
  induction names generalizing here with
  | nil =>
    rw [goFrom_nil] at h h'
    rw [← Except.ok.inj h, ← Except.ok.inj h']
    exact .inl rfl
  | cons name rest ih =>
    by_cases hdiffer : name ≠ ".." ∧ isLong name = false ∧ differ (here ++ [name])
    · exact .inr ⟨_, hdiffer.2.2, links', Nat.le_refl _, here, name, rest, e', rfl, hdiffer.1,
        hdiffer.2.1, h'⟩
    rw [goFrom_cons] at h h'
    by_cases hup : name = ".."
    · rw [if_pos hup] at h h'
      exact ih h h'
    cases hlong : isLong name with
    | true => simp [hup, hlong] at h
    | false =>
    rw [if_neg hup, if_neg (by simp [hlong])] at h h'
    have hnot : ¬differ (here ++ [name]) := fun hd => hdiffer ⟨hup, hlong, hd⟩
    rw [hsame _ hnot] at h'
    cases hplace : t.at? (here ++ [name]) with
    | none =>
      simp only [hplace] at h h'
      split at h <;> split at h' <;> cases h <;> cases h'
      exact .inl rfl
    | some there =>
      cases there with
      | file n c =>
        simp only [hplace] at h h'
        split at h <;> split at h' <;> cases h <;> cases h'
        exact .inl rfl
      | directory =>
        simp only [hplace] at h h'
        exact ih h h'
      | link target =>
        simp only [hplace, Bool.not_true, Bool.and_false, Bool.false_eq_true, if_false] at h h'
        split at h
        · -- the way in the first tree ends at the link
          obtain rfl := Except.ok.inj h
          exact absurd (hend target hplace) hnot
        · cases links with
          | zero => cases h
          | succ links =>
            cases links' with
            | zero => cases h'
            | succ links' =>
              rcases ihLinks links' (Nat.lt_succ_self _) h h' with hsame | ⟨q, hq, hby⟩
              · exact .inl hsame
              · exact .inr ⟨q, hq, hby.mono (Nat.le_succ _)⟩

/-- A path to a link, if the link is followed, goes on with its target. -/
theorem way_of_link {path target : String} (hend : Path.ending path = .name)
    (h : t.locateLast path = .ok d) (hlink : t.at? d.place = some (.link target))
    (hfollow : follow .name = true) (hgo : t.go follow path = .ok d') : ∃ links e,
      goFrom t follow links (if Path.isAbsolute target then [] else d.place.dropLast)
        (Path.names target) e = .ok d' := by
  obtain ⟨front, name, hnames, hup⟩ := Path.names_of_ending hend
  rw [locateLast, go_of_checkPath (checkPath_of_go h), hnames, hend] at h
  rw [go_of_checkPath (checkPath_of_go hgo), hnames, hend] at hgo
  rcases goFrom_append t maxLinks (t.startOf path) front with ⟨err, hfront⟩ | ⟨place, l, hfront⟩
  · rw [hfront _ _ _ (.inl (List.cons_ne_nil _ _))] at h
    cases h
  rw [hfront _ _ _ (.inl (List.cons_ne_nil _ _))] at h hgo
  obtain rfl := place_of_goFrom_single hup (by simp) h
  rw [goFrom_cons, if_neg hup] at hgo
  split at hgo
  · cases hgo
  simp only [hlink, hfollow, Bool.not_true, Bool.and_false, Bool.false_eq_true, if_false] at hgo
  cases l with
  | zero => cases hgo
  | succ l =>
    rw [List.append_nil] at hgo
    exact ⟨l, _, by rwa [List.dropLast_concat]⟩

/-! ### Directories above -/

/-- Everything stands in a directory, and paths start in one. -/
structure IsGrounded (t : FileTree) : Prop where
  above : ∀ q, t.at? q ≠ none → t.at? q.dropLast = some .directory
  workingDirectory : t.at? t.workingDirectory = some .directory

/-- It is enough to look at the entries. -/
theorem IsGrounded.of_entries (h : ∀ x ∈ t.entries, t.at? x.1.dropLast = some .directory)
    (hdir : t.at? t.workingDirectory = some .directory) : t.IsGrounded where
  above q hq := by
    by_cases hroot : q = []
    · exact hroot ▸ at?_nil t
    · obtain ⟨x, hx⟩ := Option.ne_none_iff_exists'.1 hq
      exact h _ (mem_of_at? hroot hx)
  workingDirectory := hdir

theorem IsGrounded.startOf (h : t.IsGrounded) (path : String) :
    t.at? (t.startOf path) = some .directory := by
  unfold FileTree.startOf
  split
  · exact at?_nil t
  · exact h.workingDirectory

/-- From a directory a way leads to a directory or to a name in one; there stands no link if all of
them are followed. -/
theorem directory_or_name_of_goFrom
    (habove : ∀ q, t.at? q = some .directory → t.at? q.dropLast = some .directory)
    (hhere : t.at? here = some .directory) (h : goFrom t follow links here names e = .ok d) :
    t.at? d.place = some .directory ∨ d.ending ≠ .dots ∧ t.at? d.place.dropLast = some .directory
      ∧ ((∀ e, follow e = true) → ∀ target, t.at? d.place ≠ some (.link target)) := by
  induction links using Nat.strongRecOn generalizing here names e with
  | ind links ihLinks =>
  induction names generalizing here with
  | nil =>
    rw [goFrom_nil] at h
    exact .inl (Except.ok.inj h ▸ hhere)
  | cons name rest ih =>
    rw [goFrom_cons] at h
    split at h
    · exact ih (habove here hhere) h
    split at h
    · cases h
    have hname {d' : Destination} (hlast : (rest.isEmpty && e != .dots) = true)
        (hd : Except.ok (ε := FileError) ⟨here ++ [name], e⟩ = .ok d') :
        d'.ending ≠ .dots ∧ t.at? d'.place.dropLast = some .directory := by
      obtain rfl := Except.ok.inj hd
      rw [List.dropLast_concat]
      exact ⟨(by simpa using hlast : rest = [] ∧ e ≠ .dots).2, hhere⟩
    cases hplace : t.at? (here ++ [name]) with
    | none =>
      simp only [hplace] at h
      split at h
      · next hlast =>
        obtain ⟨hend, hdir⟩ := hname hlast h
        obtain rfl := Except.ok.inj h
        exact .inr ⟨hend, hdir, fun _ target => by simp [hplace]⟩
      · cases h
    | some there =>
      cases there with
      | file n c =>
        simp only [hplace] at h
        split at h
        · next hlast =>
          obtain ⟨hend, hdir⟩ := hname hlast h
          obtain rfl := Except.ok.inj h
          exact .inr ⟨hend, hdir, fun _ target => by simp [hplace]⟩
        · cases h
      | directory =>
        simp only [hplace] at h
        exact ih hplace h
      | link target =>
        simp only [hplace] at h
        split at h
        · next hlast =>
          obtain ⟨hlast, hfollow⟩ := (Bool.and_eq_true _ _).mp hlast
          obtain ⟨hend, hdir⟩ := hname hlast h
          exact .inr ⟨hend, hdir, fun hall => by simp [hall] at hfollow⟩
        · cases links with
          | zero => cases h
          | succ links =>
            refine ihLinks links (Nat.lt_succ_self _) ?_ h
            split
            · exact at?_nil t
            · exact hhere

/-- Where a path leads there is a directory, or nothing but a name in one. -/
theorem IsGrounded.directory_or_name (ht : t.IsGrounded) {path : String}
    (h : t.go follow path = .ok d) :
    t.at? d.place = some .directory ∨ t.at? d.place.dropLast = some .directory := by
  rw [go_of_checkPath (checkPath_of_go h)] at h
  have habove : ∀ q, t.at? q = some .directory → t.at? q.dropLast = some .directory :=
    fun q hq => ht.above q (by simp [hq])
  exact (directory_or_name_of_goFrom habove (ht.startOf path) h).imp_right (·.2.1)

/-- Where a path leads when all links are followed there stands none. -/
theorem not_link_of_locate
    (habove : ∀ q, t.at? q = some .directory → t.at? q.dropLast = some .directory) {path : String}
    (hstart : t.at? (t.startOf path) = some .directory) (h : t.locate path = .ok d)
    (target : String) : t.at? d.place ≠ some (.link target) := by
  rw [locate, go_of_checkPath (checkPath_of_go h)] at h
  rcases directory_or_name_of_goFrom habove hstart h with hdirectory | ⟨-, -, hlink⟩
  · simp [hdirectory]
  · exact hlink (fun _ => rfl) target

theorem IsGrounded.makeDirectory (ht : t.IsGrounded) {path : String}
    (h : t.makeDirectory path = .ok t') : t'.IsGrounded := by
  unfold FileTree.makeDirectory at h
  cases hd : t.locateLast path with
  | error e => simp [hd, bind, Except.bind] at h
  | ok d =>
    simp only [hd, bind, Except.bind] at h
    split at h
    · next hnone =>
      have hplace : d.place ≠ [] := place_ne_nil (t := t) (by simp [hnone])
      obtain rfl := Except.ok.inj h
      have hstays : ∀ q, t.at? q = some .directory → (t.put d.place .directory).at? q
          = some .directory := fun q hq => by
        rw [at?_put hplace]
        split
        · rfl
        · exact hq
      refine ⟨fun q hq => hstays _ ?_, hstays _ ht.workingDirectory⟩
      rw [at?_put hplace] at hq
      by_cases hqd : q = d.place
      · rcases ht.directory_or_name hd with hdirectory | hname
        · cases hnone.symm.trans hdirectory
        · exact hqd ▸ hname
      · exact ht.above q (by rwa [if_neg hqd] at hq)
    · split at h
      · exact Except.ok.inj h ▸ ht
      · cases h

/-- Directories are made where everything stands in a directory. -/
theorem IsGrounded.makeParents (ht : t.IsGrounded) {path : String}
    (h : t.makeParents path = .ok t') : t'.IsGrounded :=
  makeParents_induction ht (fun ht h => ht.makeDirectory h) h

/-! ### Moved entries -/

/-- What stood at one place stands at another one, where no directory was, and all else is as it
was. -/
structure Moves (t : FileTree) (old new : Location) (x : Entry) (t' : FileTree) : Prop where
  here : t.at? old = some x
  notDirectory : x ≠ .directory
  room : t.at? new ≠ some .directory
  source : old ≠ new → t'.at? old = none
  target : t'.at? new = some x
  elsewhere : ∀ q, q ≠ old → q ≠ new → t'.at? q = t.at? q

theorem moves_of_rename {source target : String} (h : t.rename source target = .ok t') :
    ∃ old new x, t.locateLast source = .ok old ∧ t.locateLast target = .ok new
      ∧ t.Moves old.place new.place x t' ∧ t'.workingDirectory = t.workingDirectory := by
  obtain ⟨old, new, x, hold, hnew, hx, hne, hroom, hat, -, hdir⟩ := rename_eq_ok h
  refine ⟨old, new, x, hold, hnew, ⟨hx, hne, hroom, fun hsame => ?_, ?_, fun q ho hn => ?_⟩, hdir⟩
  · rw [hat, if_neg hsame, if_pos rfl]
  · rw [hat, if_pos rfl]
  · rw [hat, if_neg hn, if_neg ho]

section

variable {old new : Location} {x : Entry}

theorem Moves.same (h : t.Moves old new x t') (q : Location) (hq : ¬(q = old ∨ q = new)) :
    t'.at? q = t.at? q :=
  h.elsewhere q (fun ho => hq (.inl ho)) fun hn => hq (.inr hn)

/-- Directories stay where they are. -/
theorem Moves.directory_iff (h : t.Moves old new x t') (q : Location) :
    t'.at? q = some .directory ↔ t.at? q = some .directory := by
  by_cases hn : q = new
  · subst hn
    simp [h.target, h.notDirectory, h.room]
  by_cases ho : q = old
  · subst ho
    simp [h.source hn, h.here, h.notDirectory]
  · rw [h.elsewhere q ho hn]

/-- Where no link comes to stand and none is lost, all links and directories stay. -/
theorem Moves.growsInto (h : t.Moves old new x t')
    (hdir : t'.workingDirectory = t.workingDirectory) (hx : ∀ target, x ≠ .link target)
    (hnew : ∀ target, t.at? new ≠ some (.link target)) : t.GrowsInto t' where
  directory q hq := (h.directory_iff q).2 hq
  link q target := by
    by_cases hn : q = new
    · subst hn
      simp [h.target, hx, hnew]
    by_cases ho : q = old
    · subst ho
      simp [h.source hn, h.here, hx]
    · rw [h.elsewhere q ho hn]
  workingDirectory := hdir

/-- Where the entry stood there is nothing now, so a way that comes by and leads to something comes
by the place where it stands now. -/
theorem Moves.comesBy_new (h : t.Moves old new x t') {q : Location} (hq : q = old ∨ q = new)
    (hby : t'.ComesBy links q d) (hthere : t'.at? d.place ≠ none) : t'.ComesBy links new d := by
  by_cases hsame : old = new
  · exact (hq.elim (·.trans hsame) id) ▸ hby
  rcases hq with rfl | rfl
  · have hnone := h.source hsame
    exact absurd (hby.place_eq (by simp [hnone]) (by simp [hnone]) ▸ hnone) hthere
  · exact hby

/-- A path that led to the new place of an entry leads there, or it comes by there on the way to
anything else. -/
theorem Moves.locate {path : String} (h : t.Moves old d.place x t')
    (hdir : t'.workingDirectory = t.workingDirectory) (hd : t.locateLast path = .ok d)
    (hd' : t'.locate path = .ok d') (hthere : t'.at? d'.place ≠ none) :
    d'.place = d.place ∨ t'.ComesBy maxLinks d.place d' := by
  have hcheck := checkPath_of_go hd
  rw [locateLast, go_of_checkPath hcheck] at hd
  rw [FileTree.locate, go_of_checkPath hcheck, startOf_eq hdir] at hd'
  rcases place_eq_or_comesBy h.same (fun _ _ => .inr rfl) hd hd' with hplace | ⟨q, hq, hby⟩
  · exact .inl hplace
  · exact .inr (h.comesBy_new hq hby hthere)

end

section

variable {old new base : Location} {target : String} {n : Nat} {c : Content}

/-- A link that led to a file leads there or to nothing when it has been moved to another place of
its directory. -/
theorem Moves.place_of_link (h : t.Moves old new (.link target) t')
    (habove : ∀ q, t'.at? q = some .directory → t'.at? q.dropLast = some .directory)
    (hbase : base = if Path.isAbsolute target then [] else new.dropLast)
    (hground : t'.at? base = some .directory)
    (hway : goFrom t follow links base (Path.names target) e = .ok d)
    (hfile : t.at? d.place = some (.file n c)) (rest : List String)
    (hway' : goFrom t' (fun _ => true) links' base (Path.names target ++ rest) e' = .ok d')
    (hthere : t'.at? d'.place ≠ none) : d'.place = d.place := by
  induction links' using Nat.strongRecOn generalizing rest e' d' with
  | ind links' ih =>
  have htarget : ∀ {e' d'}, goFrom t' (fun _ => true) links' base (Path.names target) e' = .ok d' →
      t'.at? d'.place ≠ none → d'.place = d.place := by
    intro e' d' hway' hthere
    rcases place_eq_or_comesBy h.same (fun _ hlink => by cases hlink.symm.trans hfile)
      hway hway' with hplace | ⟨q, hq, hby⟩
    · exact hplace
    · -- the way comes by the link again, with fewer links to go through
      obtain ⟨l, hl, rest, e, hagain⟩ := (h.comesBy_new hq hby hthere).through h.target
      exact ih l hl rest (hbase ▸ hagain) hthere
  cases rest with
  | nil => exact htarget (List.append_nil _ ▸ hway') hthere
  | cons name rest =>
    -- what follows the target would have to stand in a directory, and there is a file
    exfalso
    rcases goFrom_append t' links' base (Path.names target) with
      ⟨err, hfront⟩ | ⟨place, l, hfront⟩
    · rw [hfront _ _ _ (.inl (List.cons_ne_nil _ _))] at hway'
      cases hway'
    have hdots := hfront (fun _ => true) [] .dots (.inr rfl)
    rw [List.append_nil, goFrom_nil] at hdots
    have hplace : t'.at? place = some .directory :=
      (directory_or_name_of_goFrom habove hground hdots).resolve_right fun hname =>
        hname.1 rfl
    have heq : place = d.place := htarget hdots (by simp [hplace])
    have hdirectory := (h.directory_iff place).1 hplace
    cases (heq ▸ hdirectory).symm.trans hfile

end

end Marginalia.FileTree
