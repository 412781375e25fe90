import Marginalia.Proofs.Tree

/-!
Where paths lead. A path follows the directories and the links of a tree, and the files matter only
where it ends. So a path that leads somewhere leads there in every tree that has the same links and
all the directories. A path in two parts goes on where the first part leads.
-/

namespace Marginalia.FileTree

open Marginalia.Path (Ending)

variable {t t' : FileTree} {follow : Ending → Bool} {e : Ending}
  {expand expand' : Location → List String → Ending → Except FileError Destination}

/-- One name of a path. -/
theorem goAlong_cons (here : Location) (name : String) (rest : List String) :
    goAlong t follow e expand here (name :: rest)
      = if name = ".." then goAlong t follow e expand here.dropLast rest
        else if isLong name then .error .nameTooLong
        else match t.at? (here ++ [name]) with
          | none => if rest.isEmpty && e != .dots then .ok ⟨here ++ [name], e⟩ else .error .notFound
          | some .directory => goAlong t follow e expand (here ++ [name]) rest
          | some (.file ..) =>
            if rest.isEmpty && e != .dots then .ok ⟨here ++ [name], e⟩ else .error .notADirectory
          | some (.link target) =>
            if rest.isEmpty && e != .dots && !follow e then .ok ⟨here ++ [name], e⟩
            else expand (if Path.isAbsolute target then [] else here) (Path.names target ++ rest)
              (endingThrough target rest e) := rfl

theorem goFrom_nil (links : Nat) (here : Location) :
    goFrom t follow links here [] e = .ok ⟨here, e⟩ := by
  cases links <;> rfl

/-- A path that can be asked for is followed from its start. -/
theorem go_of_checkPath {path : String} (h : checkPath path = .ok ()) :
    t.go follow path
      = goFrom t follow maxLinks (t.startOf path) (Path.names path) (Path.ending path) := by
  rw [go, h]
  generalize goFrom t follow maxLinks (t.startOf path) (Path.names path) (Path.ending path) = r
  rfl

theorem go_of_checkPath_error {path : String} {err : FileError} (h : checkPath path = .error err) :
    t.go follow path = .error err := by
  rw [go, h]
  rfl

theorem checkPath_of_go {path : String} {d : Destination} (h : t.go follow path = .ok d) :
    checkPath path = .ok () := by
  cases hcheck : checkPath path with
  | error e =>
    rw [go_of_checkPath_error hcheck] at h
    cases h
  | ok checked => rfl

/-! ### Trees with the same ways -/

/-- One tree has the links of another one and at least its directories. -/
structure GrowsInto (t t' : FileTree) : Prop where
  directory : ∀ q, t.at? q = some .directory → t'.at? q = some .directory
  link : ∀ q target, t'.at? q = some (.link target) ↔ t.at? q = some (.link target)
  workingDirectory : t'.workingDirectory = t.workingDirectory

theorem GrowsInto.refl (t : FileTree) : t.GrowsInto t := ⟨fun _ h => h, fun _ _ => .rfl, rfl⟩

theorem GrowsInto.trans {t'' : FileTree} (h : t.GrowsInto t') (h' : t'.GrowsInto t'') :
    t.GrowsInto t'' where
  directory q hq := h'.directory q (h.directory q hq)
  link q target := (h'.link q target).trans (h.link q target)
  workingDirectory := h'.workingDirectory.trans h.workingDirectory

theorem AddsDirectories.growsInto (h : t.AddsDirectories t') : t.GrowsInto t' where
  directory q hq := by
    rcases h.entry q with hsame | ⟨hnone, -⟩
    · exact hsame.trans hq
    · exact absurd (hnone.symm.trans hq) (by simp)
  link q target := by
    rcases h.entry q with hsame | ⟨hnone, hq⟩
    · rw [hsame]
    · simp [hnone, hq]
  workingDirectory := h.workingDirectory

/-- One tree has the ways of another one: the same links and the same directories. -/
structure SameWays (t t' : FileTree) : Prop where
  forth : t.GrowsInto t'
  back : t'.GrowsInto t

theorem SameWays.refl (t : FileTree) : t.SameWays t := ⟨.refl t, .refl t⟩

theorem SameWays.trans {t'' : FileTree} (h : t.SameWays t') (h' : t'.SameWays t'') :
    t.SameWays t'' := ⟨h.forth.trans h'.forth, h'.back.trans h.back⟩

theorem SameWays.symm (h : t.SameWays t') : t'.SameWays t := ⟨h.back, h.forth⟩

/-- At one place nothing is different, or only files are. -/
def DiffersInFiles (e e' : Option Entry) : Prop :=
  e' = e ∨ (∀ x, e = some x → ∃ n c, x = .file n c) ∧ ∀ x, e' = some x → ∃ n c, x = .file n c

theorem sameWays_of_at? (hdir : t'.workingDirectory = t.workingDirectory)
    (h : ∀ q, DiffersInFiles (t.at? q) (t'.at? q)) : t.SameWays t' := by
  have hsame : ∀ q x, (∀ n c, x ≠ .file n c) → (t'.at? q = some x ↔ t.at? q = some x) := by
    intro q x hx
    rcases h q with hq | ⟨hq, hq'⟩
    · rw [hq]
    · constructor
      · intro hsome
        obtain ⟨n, c, rfl⟩ := hq' x hsome
        exact absurd rfl (hx n c)
      · intro hsome
        obtain ⟨n, c, rfl⟩ := hq x hsome
        exact absurd rfl (hx n c)
  have hdirectory := fun q => hsame q .directory (fun _ _ => by simp)
  have hlink := fun q target => hsame q (.link target) (fun _ _ => by simp)
  exact ⟨⟨fun q => (hdirectory q).2, hlink, hdir⟩,
    ⟨fun q => (hdirectory q).1, fun q target => (hlink q target).symm, hdir.symm⟩⟩

theorem differsInFiles_map_change (serial : Nat) (f : Content → Content) (e : Option Entry) :
    DiffersInFiles e (e.map (Entry.change serial f)) := by
  cases e with
  | none => exact .inl rfl
  | some x =>
    cases x with
    | file n c =>
      exact .inr ⟨fun y hy => ⟨n, c, (Option.some.inj hy).symm⟩,
        fun y hy => ⟨n, _, (Option.some.inj hy).symm⟩⟩
    | directory => exact .inl rfl
    | link target => exact .inl rfl

theorem sameWays_change (t : FileTree) (serial : Nat) (f : Content → Content) :
    t.SameWays (t.change serial f) :=
  sameWays_of_at? rfl fun q => at?_change serial f q ▸ differsInFiles_map_change serial f _

theorem Writes.sameWays {place : Location} {text : String} {n : Nat}
    (h : t.Writes place text t' n) : t.SameWays t' := by
  refine sameWays_of_at? h.workingDirectory fun q => ?_
  by_cases hq : q = place
  · subst hq
    refine .inr ⟨fun x hx => ?_, fun x hx => ⟨n, _, Option.some.inj (hx.symm.trans h.here)⟩⟩
    rcases h.serial with ⟨⟨c, hc⟩, -⟩ | ⟨hnone, -⟩
    · exact ⟨n, c, Option.some.inj (hx.symm.trans hc)⟩
    · cases hnone.symm.trans hx
  · rw [h.elsewhere q hq]
    exact differsInFiles_map_change n _ _

/-- The last name of a path leads to its place, unless a link has to be followed there. -/
theorem goAlong_last {name : String} (hup : name ≠ "..") (hlong : isLong name = false)
    (he : e ≠ .dots) {here : Location}
    (hlink : ∀ target, t.at? (here ++ [name]) = some (.link target) → follow e = false) :
    goAlong t follow e expand here [name] = .ok ⟨here ++ [name], e⟩ := by
  rw [goAlong_cons, if_neg hup, if_neg (by simp [hlong])]
  cases hplace : t.at? (here ++ [name]) with
  | none => simp [he]
  | some there =>
    cases there with
    | file n c => simp [he]
    | directory => simp [goAlong]
    | link target => simp [he, hlink target hplace]

theorem goAlong_mono (h : t.GrowsInto t')
    (hexpand : ∀ {here names e d}, expand here names e = .ok d → expand' here names e = .ok d)
    {here : Location} {names : List String} {d : Destination}
    (hgo : goAlong t follow e expand here names = .ok d) :
    goAlong t' follow e expand' here names = .ok d := by
  induction names generalizing here with
  | nil => exact hgo
  | cons name rest ih =>
    rw [goAlong_cons] at hgo ⊢
    split at hgo
    · rename_i hup
      rw [if_pos hup]
      exact ih hgo
    rename_i hup
    rw [if_neg hup]
    split at hgo
    · cases hgo
    rename_i hlong
    rw [if_neg hlong]
    have hnotLink : (∀ target, t.at? (here ++ [name]) ≠ some (.link target)) → rest = [] →
        e ≠ .dots → goAlong t' follow e expand' here (name :: rest) = .ok ⟨here ++ [name], e⟩ := by
      rintro hnone rfl he
      exact goAlong_last hup (by simpa using hlong) he fun target hlink =>
        absurd ((h.link _ _).1 hlink) (hnone target)
    rw [goAlong_cons, if_neg hup, if_neg hlong] at hnotLink
    cases hplace : t.at? (here ++ [name]) with
    | none =>
      simp only [hplace] at hgo
      split at hgo
      · rename_i hlast
        obtain ⟨hrest, he⟩ : rest = [] ∧ e ≠ .dots := by simpa using hlast
        exact (hnotLink (by simp [hplace]) hrest he).trans hgo
      · cases hgo
    | some there =>
      cases there with
      | directory =>
        simp only [hplace] at hgo
        simp only [h.directory _ hplace]
        exact ih hgo
      | file n c =>
        simp only [hplace] at hgo
        split at hgo
        · rename_i hlast
          obtain ⟨hrest, he⟩ : rest = [] ∧ e ≠ .dots := by simpa using hlast
          exact (hnotLink (by simp [hplace]) hrest he).trans hgo
        · cases hgo
      | link target =>
        simp only [hplace] at hgo
        simp only [(h.link _ _).2 hplace]
        split at hgo
        · rename_i hlast
          rw [if_pos hlast]
          exact hgo
        · rename_i hlast
          rw [if_neg hlast]
          exact hexpand hgo

theorem goFrom_mono (h : t.GrowsInto t') {links : Nat} {here : Location} {names : List String}
    {d : Destination} (hgo : goFrom t follow links here names e = .ok d) :
    goFrom t' follow links here names e = .ok d := by
  induction links generalizing here names e d with
  | zero => exact goAlong_mono h (fun herror => by cases herror) hgo
  | succ links ih => exact goAlong_mono h (fun hgo => ih hgo) hgo

theorem startOf_eq (h : t'.workingDirectory = t.workingDirectory) (path : String) :
    t'.startOf path = t.startOf path := by
  rw [startOf, startOf, h]

/-- A path that leads somewhere still leads there when directories are added. -/
theorem go_mono (h : t.GrowsInto t') {path : String} {d : Destination}
    (hgo : t.go follow path = .ok d) : t'.go follow path = .ok d := by
  have hcheck := checkPath_of_go hgo
  rw [go_of_checkPath hcheck] at hgo ⊢
  rw [startOf_eq h.workingDirectory]
  exact goFrom_mono h hgo

/-! ### Links at the end -/

/-- Whether the last link is followed makes no difference, unless there is one. -/
theorem goAlong_follow
    (hexpand : ∀ here names e, expand here names e = expand' here names e
      ∨ ∃ d target, expand' here names e = .ok d ∧ t.at? d.place = some (.link target))
    (here : Location) (names : List String) :
    goAlong t follow e expand here names = goAlong t (fun _ => false) e expand' here names
      ∨ ∃ d target, goAlong t (fun _ => false) e expand' here names = .ok d
        ∧ t.at? d.place = some (.link target) := by
  induction names generalizing here with
  | nil => exact .inl rfl
  | cons name rest ih =>
    rw [goAlong_cons, goAlong_cons]
    split
    · exact ih _
    split
    · exact .inl rfl
    cases hplace : t.at? (here ++ [name]) with
    | none => exact .inl rfl
    | some there =>
      cases there with
      | directory => exact ih _
      | file n c => exact .inl rfl
      | link target =>
        by_cases hlast : (rest.isEmpty && e != .dots) = true
        · simp only [hlast, Bool.true_and, Bool.not_false, if_true]
          exact .inr ⟨_, target, rfl, hplace⟩
        · simp only [hlast, Bool.false_and, Bool.false_eq_true, if_false]
          exact hexpand _ _ _

theorem goFrom_follow (links : Nat) (here : Location) (names : List String) (e : Ending) :
    goFrom t follow links here names e = goFrom t (fun _ => false) links here names e
      ∨ ∃ d target, goFrom t (fun _ => false) links here names e = .ok d
        ∧ t.at? d.place = some (.link target) := by
  induction links generalizing here names e with
  | zero => exact goAlong_follow (fun _ _ _ => .inl rfl) here names
  | succ links ih => exact goAlong_follow ih here names

/-- A path on which the last link is followed leads where it leads otherwise, unless to a link. -/
theorem go_follow (t : FileTree) (follow : Ending → Bool) (path : String) :
    t.go follow path = t.locateLast path
    ∨ ∃ d target, t.locateLast path = .ok d ∧ t.at? d.place = some (.link target) := by
  cases hcheck : checkPath path with
  | error e =>
    rw [locateLast, go_of_checkPath_error hcheck, go_of_checkPath_error hcheck]
    exact .inl rfl
  | ok checked =>
    rw [locateLast, go_of_checkPath hcheck, go_of_checkPath hcheck]
    exact goFrom_follow _ _ _ _

/-- A path at whose end no link is followed ends as it says. -/
theorem ending_of_goAlong
    (hexpand : ∀ {here names e d}, expand here names e = .ok d → d.ending = e) {here : Location}
    {names : List String} {d : Destination}
    (h : goAlong t (fun _ => false) e expand here names = .ok d) : d.ending = e := by
  induction names generalizing here with
  | nil =>
    obtain rfl := Except.ok.inj h
    rfl
  | cons name rest ih =>
    rw [goAlong_cons] at h
    split at h
    · exact ih h
    split at h
    · cases h
    cases hplace : t.at? (here ++ [name]) with
    | none =>
      simp only [hplace] at h
      split at h
      · rw [← Except.ok.inj h]
      · cases h
    | some there =>
      cases there with
      | directory =>
        simp only [hplace] at h
        exact ih h
      | file n c =>
        simp only [hplace] at h
        split at h
        · rw [← Except.ok.inj h]
        · cases h
      | link target =>
        simp only [hplace] at h
        split at h
        · rw [← Except.ok.inj h]
        · -- the link stands on the way, or before dots
          have hend : endingThrough target rest e = e := by
            cases e <;> simp_all [endingThrough]
          rw [hexpand h, hend]

theorem ending_of_goFrom {links : Nat} {here : Location} {names : List String} {d : Destination}
    (h : goFrom t (fun _ => false) links here names e = .ok d) : d.ending = e := by
  induction links generalizing here names e d with
  | zero => exact ending_of_goAlong (fun herror => by cases herror) h
  | succ links ih => exact ending_of_goAlong (fun hd => ih hd) h

theorem ending_of_locateLast {path : String} {d : Destination} (h : t.locateLast path = .ok d) :
    d.ending = Path.ending path := by
  rw [locateLast, go_of_checkPath (checkPath_of_go h)] at h
  exact ending_of_goFrom h

/-- Where there is no link at the end of a path, nothing is left to follow. -/
theorem locate_of_locateLast {path : String} {d : Destination} (h : t.locateLast path = .ok d)
    {n : Nat} {c : Content} (hfile : t.at? d.place = some (.file n c)) : t.locate path = .ok d := by
  rcases t.go_follow (fun _ => true) path with hgo | ⟨d', target, hd', hlink⟩
  · exact hgo.trans h
  · obtain rfl := Except.ok.inj (hd'.symm.trans h)
    cases hlink.symm.trans hfile

/-- A path that leads to a file, and not to a link, is found to. -/
theorem find_of_locateLast {path : String} {place : Location} {n : Nat} {c : Content}
    (h : t.locateLast path = .ok ⟨place, .name⟩) (hfile : t.at? place = some (.file n c)) :
    t.find path = .ok (place, .file n c) := by
  rw [find, locate_of_locateLast h hfile]
  simp only [bind, Except.bind, hfile]
  rfl

theorem readText_of_locateLast {path : String} {place : Location} {n : Nat} {text : String}
    (h : t.locateLast path = .ok ⟨place, .name⟩)
    (hfile : t.at? place = some (.file n (.text text))) : t.readText path = .ok text := by
  rw [readText, stat, find_of_locateLast h hfile]
  rfl

/-- What a path is found to lead to stands at the place where it leads. -/
theorem find_eq_ok {path : String} {place : Location} {e : Entry}
    (h : t.find path = .ok (place, e)) :
    ∃ d, t.locate path = .ok d ∧ d.place = place ∧ t.at? place = some e := by
  unfold find at h
  cases hd : t.locate path with
  | error err => simp [hd, bind, Except.bind] at h
  | ok d =>
    simp only [hd, bind, Except.bind] at h
    refine ⟨d, rfl, ?_⟩
    split at h
    · cases h
    · rename_i hplace
      obtain ⟨rfl, rfl⟩ := Prod.mk.inj (Except.ok.inj h)
      exact ⟨rfl, hplace⟩
    · rename_i hplace
      split at h
      · obtain ⟨rfl, rfl⟩ := Prod.mk.inj (Except.ok.inj h)
        exact ⟨rfl, hplace⟩
      · cases h

/-! ### Where a path would lead -/

/-- Where a path leads in a tree, or would lead if there were more directories; a link at its end is
left alone. -/
def LeadsTo (t : FileTree) (path : String) (place : Location) : Prop :=
  ∃ t' d, t.GrowsInto t' ∧ t'.locateLast path = .ok d ∧ d.place = place

section

variable {path : String} {place : Location} {d : Destination}

theorem leadsTo_of_locateLast (h : t.locateLast path = .ok d) : t.LeadsTo path d.place :=
  ⟨t, d, .refl t, h, rfl⟩

theorem LeadsTo.of_growsInto (h : t.GrowsInto t') (hpath : t'.LeadsTo path place) :
    t.LeadsTo path place := by
  obtain ⟨t'', d, hgrows, hd, hplace⟩ := hpath
  exact ⟨t'', d, h.trans hgrows, hd, hplace⟩

/-- A path that leads somewhere would not lead anywhere else. -/
theorem LeadsTo.place_eq (h : t.LeadsTo path place) (hd : t.locateLast path = .ok d) :
    d.place = place := by
  obtain ⟨t', d', hgrows, hd', rfl⟩ := h
  rw [Except.ok.inj ((go_mono hgrows hd).symm.trans hd')]

/-- Every path leads somewhere, and the check holds there. -/
def allLead (t : FileTree) (check : Location → Bool) (paths : List String) : Bool :=
  paths.all fun path =>
    match t.locateLast path with
    | .ok d => check d.place
    | .error _ => false

theorem check_of_allLead {check : Location → Bool} {paths : List String}
    (h : t.allLead check paths = true) (hpath : path ∈ paths) (hleads : t.LeadsTo path place) :
    check place = true := by
  have hcheck := List.all_eq_true.1 h path hpath
  cases hd : t.locateLast path with
  | error e =>
    rw [hd] at hcheck
    cases hcheck
  | ok d =>
    rw [hd] at hcheck
    rwa [← hleads.place_eq hd]

/-- Whether a last link is followed or not, a path leads there, unless it leads to a link. -/
theorem leadsTo_of_go (hlink : ∀ q target, t.LeadsTo path q → t.at? q ≠ some (.link target))
    (h : t.go follow path = .ok d) : t.LeadsTo path d.place := by
  rcases go_follow t follow path with hgo | ⟨d', target, hd', hat⟩
  · exact leadsTo_of_locateLast (hgo ▸ h)
  · exact absurd hat (hlink _ target (leadsTo_of_locateLast hd'))

end

/-! ### Paths in parts -/

/-- The first names lead somewhere, from where the others are followed, or they lead nowhere; in
either case at the last name of all nothing is different. -/
def Divides (t : FileTree)
    (run : (Ending → Bool) → List String → Ending → Except FileError Destination)
    (front : List String) : Prop :=
  (∃ err, ∀ follow more e, more ≠ [] ∨ e = .dots → run follow (front ++ more) e = .error err)
    ∨ ∃ place links, ∀ follow more e, more ≠ [] ∨ e = .dots →
      run follow (front ++ more) e = goFrom t follow links place more e

section

variable {run run' : (Ending → Bool) → List String → Ending → Except FileError Destination}
  {front front' : List String}

theorem Divides.congr (h : t.Divides run' front')
    (hrun : ∀ follow more e, more ≠ [] ∨ e = .dots →
      run follow (front ++ more) e = run' follow (front' ++ more) e) : t.Divides run front := by
  rcases h with ⟨err, h⟩ | ⟨place, links, h⟩
  · exact .inl ⟨err, fun follow more e hmore => (hrun _ _ _ hmore).trans (h _ _ _ hmore)⟩
  · exact .inr ⟨place, links, fun follow more e hmore => (hrun _ _ _ hmore).trans (h _ _ _ hmore)⟩

end

theorem divides_of_expand {links : Nat}
    (expand : (Ending → Bool) → Location → List String → Ending → Except FileError Destination)
    (hgo : ∀ follow here names e,
      goFrom t follow links here names e = goAlong t follow e (expand follow) here names)
    (hexpand : ∀ here front, t.Divides (expand · here) front) (here : Location)
    (front : List String) : t.Divides (goFrom t · links here) front := by
  induction front generalizing here with
  | nil => exact .inr ⟨here, links, fun _ _ _ _ => rfl⟩
  | cons name rest ih =>
    have hstep : ∀ follow more e, more ≠ [] ∨ e = .dots →
        goFrom t follow links here (name :: rest ++ more) e
          = if name = ".." then goFrom t follow links here.dropLast (rest ++ more) e
            else if isLong name then .error .nameTooLong
            else match t.at? (here ++ [name]) with
              | none => .error .notFound
              | some .directory => goFrom t follow links (here ++ [name]) (rest ++ more) e
              | some (.file ..) => .error .notADirectory
              | some (.link target) => expand follow (if Path.isAbsolute target then [] else here)
                (Path.names target ++ rest ++ more) e := by
      intro follow more e hmore
      have hlast : ((rest ++ more).isEmpty && e != .dots) = false := by
        rcases hmore with hmore | hmore <;> simp [hmore]
      have hend (target : String) : endingThrough target (rest ++ more) e = e := by
        rcases hmore with hmore | hmore <;> simp [endingThrough, hmore]
      simp only [hgo, List.cons_append, goAlong_cons, hlast, Bool.false_and, hend,
        List.append_assoc,
        Bool.false_eq_true, if_false]
    by_cases hup : name = ".."
    · exact (ih here.dropLast).congr fun follow more e hmore => by
        simpa only [hup, if_true] using hstep follow more e hmore
    by_cases hlong : isLong name = true
    · exact .inl ⟨.nameTooLong, fun follow more e hmore => by
        simpa only [hup, hlong, if_true, if_false] using hstep follow more e hmore⟩
    simp only [hup, hlong, Bool.false_eq_true, if_false] at hstep
    cases hplace : t.at? (here ++ [name]) with
    | none => exact .inl ⟨.notFound, by simpa only [hplace] using hstep⟩
    | some there =>
      cases there with
      | file n c => exact .inl ⟨.notADirectory, by simpa only [hplace] using hstep⟩
      | directory =>
        exact (ih (here ++ [name])).congr (by simpa only [hplace] using hstep)
      | link target =>
        exact (hexpand _ (Path.names target ++ rest)).congr (by simpa only [hplace] using hstep)

theorem divides_goFrom (t : FileTree) (links : Nat) (here : Location) (front : List String) :
    t.Divides (goFrom t · links here) front := by
  induction links generalizing here front with
  | zero =>
    exact divides_of_expand (fun _ _ _ _ => .error .tooManyLinks) (fun _ _ _ _ => rfl)
      (fun _ _ => .inl ⟨_, fun _ _ _ _ => rfl⟩) here front
  | succ links ih =>
    exact divides_of_expand (goFrom t · links) (fun _ _ _ _ => rfl) ih here front

/-- A path goes on where its first names lead, or leads nowhere if they do not. -/
theorem goFrom_append (t : FileTree) (links : Nat) (here : Location) (front : List String) :
    (∃ err, ∀ follow more e, more ≠ [] ∨ e = .dots →
        goFrom t follow links here (front ++ more) e = .error err)
      ∨ ∃ place links', ∀ follow more e, more ≠ [] ∨ e = .dots →
        goFrom t follow links here (front ++ more) e = goFrom t follow links' place more e :=
  divides_goFrom t links here front

/-- A last name that is not too long leads behind the names before, where nothing is followed. -/
theorem goFrom_single {links : Nat} {here : Location} {name : String} (hup : name ≠ "..")
    (he : e ≠ .dots) (hlink : isLong name = false → ∀ target,
      t.at? (here ++ [name]) = some (.link target) → follow e = false) :
    goFrom t follow links here [name] e
      = if isLong name then .error .nameTooLong else .ok ⟨here ++ [name], e⟩ := by
  cases hlong : isLong name with
  | true => cases links <;> simp [goFrom, goAlong_cons, hup, hlong]
  | false => cases links <;> exact goAlong_last hup hlong he (hlink hlong)

/-- The place of a last name is behind that of the names before, where nothing is followed. -/
theorem place_of_goFrom_single {links : Nat} {here : Location} {name : String} {d : Destination}
    (hup : name ≠ "..") (he : e ≠ .dots)
    (h : goFrom t (fun _ => false) links here [name] e = .ok d) : d = ⟨here ++ [name], e⟩ := by
  rw [goFrom_single hup he fun _ _ _ => rfl] at h
  split at h
  · cases h
  · exact (Except.ok.inj h).symm

/-- Two paths with the same names but for the last one lead to places beside each other. -/
theorem places_of_locateLast {path path' : String} {front : List String} {name name' : String}
    (hnames : Path.names path = front ++ [name]) (hnames' : Path.names path' = front ++ [name'])
    (hup : name ≠ "..") (hup' : name' ≠ "..") (hend : Path.ending path ≠ .dots)
    (hend' : Path.ending path' ≠ .dots) (hstart : Path.isAbsolute path' = Path.isAbsolute path)
    {d d' : Destination} (h : t.locateLast path = .ok d) (h' : t.locateLast path' = .ok d') :
    ∃ place, d.place = place ++ [name] ∧ d'.place = place ++ [name'] := by
  have hstart : t.startOf path' = t.startOf path := by rw [startOf, startOf, hstart]
  rw [locateLast, go_of_checkPath (checkPath_of_go h), hnames] at h
  rw [locateLast, go_of_checkPath (checkPath_of_go h'), hnames', hstart] at h'
  rcases goFrom_append t maxLinks (t.startOf path) front with ⟨err, hfront⟩ | ⟨place, links, hfront⟩
  · rw [hfront _ _ _ (.inl (List.cons_ne_nil _ _))] at h
    cases h
  · rw [hfront _ _ _ (.inl (List.cons_ne_nil _ _))] at h h'
    rw [place_of_goFrom_single hup hend h, place_of_goFrom_single hup' hend' h']
    exact ⟨place, rfl, rfl⟩

/-- Where a path leads tells where another one leads that has another last name, unless a link has
to be followed there. -/
theorem go_beside {path path' : String} {front : List String} {name name' : String}
    (hnames : Path.names path = front ++ [name]) (hnames' : Path.names path' = front ++ [name'])
    (hup : name ≠ "..") (hup' : name' ≠ "..") (hend : Path.ending path ≠ .dots)
    (hend' : Path.ending path' ≠ .dots) (hstart : Path.isAbsolute path' = Path.isAbsolute path)
    {d : Destination} (h : t.locateLast path = .ok d)
    (hlink : checkPath path' = .ok () → isLong name' = false → ∀ target,
      t.at? (d.place.dropLast ++ [name']) = some (.link target) →
        follow (Path.ending path') = false) :
    t.go follow path' = (checkPath path').bind fun _ =>
      if isLong name' then .error .nameTooLong
      else .ok ⟨d.place.dropLast ++ [name'], Path.ending path'⟩ := by
  cases hcheck : checkPath path' with
  | error err => exact go_of_checkPath_error hcheck
  | ok checked =>
    have hstart : t.startOf path' = t.startOf path := by rw [startOf, startOf, hstart]
    rw [locateLast, go_of_checkPath (checkPath_of_go h), hnames] at h
    rw [go_of_checkPath hcheck, hnames', hstart]
    rcases goFrom_append t maxLinks (t.startOf path) front with
      ⟨err, hfront⟩ | ⟨place, links, hfront⟩
    · rw [hfront _ _ _ (.inl (List.cons_ne_nil _ _))] at h
      cases h
    · rw [hfront _ _ _ (.inl (List.cons_ne_nil _ _))] at h ⊢
      obtain rfl := place_of_goFrom_single hup hend h
      rw [List.dropLast_concat] at hlink ⊢
      exact goFrom_single hup' hend' (hlink hcheck)

/-! ### Down into directories -/

/-- A path that leads to a directory can be gone on from. -/
theorem goAlong_dots {names : List String} {here : Location} {d : Destination}
    (hexpand : ∀ {here names e d}, expand here names e = .ok d → t.at? d.place = some .directory →
      expand' here names .dots = .ok ⟨d.place, .dots⟩)
    (h : goAlong t (fun _ => true) e expand here names = .ok d)
    (hd : t.at? d.place = some .directory) :
    goAlong t follow .dots expand' here names = .ok ⟨d.place, .dots⟩ := by
  induction names generalizing here with
  | nil =>
    obtain rfl := Except.ok.inj h
    rfl
  | cons name rest ih =>
    rw [goAlong_cons] at h ⊢
    split at h
    · rename_i hup
      rw [if_pos hup]
      exact ih h
    rename_i hup
    rw [if_neg hup]
    split at h
    · cases h
    rename_i hlong
    rw [if_neg hlong]
    cases hplace : t.at? (here ++ [name]) with
    | none =>
      simp only [hplace] at h
      split at h
      · obtain rfl := Except.ok.inj h
        exact absurd (hplace.symm.trans hd) (by simp)
      · cases h
    | some there =>
      cases there with
      | file n c =>
        simp only [hplace] at h
        split at h
        · obtain rfl := Except.ok.inj h
          exact absurd (hplace.symm.trans hd) (by simp)
        · cases h
      | directory =>
        simp only [hplace] at h ⊢
        exact ih h
      | link target =>
        have hend : endingThrough target rest .dots = .dots := by simp [endingThrough]
        simp only [hplace, Bool.not_true, Bool.and_false, Bool.false_eq_true, if_false] at h
        simp only [bne_self_eq_false, Bool.and_false, Bool.false_and, Bool.false_eq_true, if_false,
          hend]
        exact hexpand h hd

theorem goFrom_dots {links : Nat} {here : Location} {names : List String} {d : Destination}
    (h : goFrom t (fun _ => true) links here names e = .ok d)
    (hd : t.at? d.place = some .directory) :
    goFrom t follow links here names .dots = .ok ⟨d.place, .dots⟩ := by
  induction links generalizing here names e d with
  | zero => exact goAlong_dots (fun herror => by cases herror) h hd
  | succ links ih => exact goAlong_dots (fun h hd => ih h hd) h hd

/-- From directory to directory names lead down to a file, unless one of them is too long. -/
theorem goAlong_down {names : List String} (hne : names ≠ []) (hup : ".." ∉ names) {here : Location}
    {n : Nat} {c : Content}
    (hfronts : ∀ i, i + 1 < names.length →
      t.at? (here ++ names.take (i + 1)) = some .directory)
    (hfile : t.at? (here ++ names) = some (.file n c)) :
    goAlong t follow .name expand here names
      = if names.any isLong then .error .nameTooLong else .ok ⟨here ++ names, .name⟩ := by
  induction names generalizing here with
  | nil => exact absurd rfl hne
  | cons name rest ih =>
    obtain ⟨hname, hrest⟩ : name ≠ ".." ∧ ".." ∉ rest := by
      simpa [eq_comm] using hup
    rw [goAlong_cons, if_neg hname]
    by_cases hlong : isLong name = true
    · simp [hlong]
    rw [if_neg hlong]
    simp only [List.any_cons, hlong, Bool.false_or]
    cases rest with
    | nil => simp [hfile]
    | cons next rest =>
      have hdirectory : t.at? (here ++ [name]) = some .directory := hfronts 0 (by simp)
      simp only [hdirectory]
      rw [ih (List.cons_ne_nil _ _) hrest, List.append_assoc]
      · rfl
      · intro i hi
        have hfront := hfronts (i + 1) (by simpa using hi)
        rwa [List.take_succ_cons, List.append_cons] at hfront
      · rwa [List.append_assoc]

theorem goFrom_down {links : Nat} {names : List String} (hne : names ≠ []) (hup : ".." ∉ names)
    {here : Location} {n : Nat} {c : Content}
    (hfronts : ∀ i, i + 1 < names.length →
      t.at? (here ++ names.take (i + 1)) = some .directory)
    (hfile : t.at? (here ++ names) = some (.file n c)) :
    goFrom t follow links here names .name
      = if names.any isLong then .error .nameTooLong else .ok ⟨here ++ names, .name⟩ := by
  cases links <;> exact goAlong_down hne hup hfronts hfile

end Marginalia.FileTree
