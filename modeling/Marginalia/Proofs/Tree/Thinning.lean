import Marginalia.Proofs.Tree.Ways

/-!
Trees in which files are gone or hold something else. Where the ways are the same and nothing has
come, directories can be made and texts be written as before: a path that led to a file or to
nothing leads to a file or to nothing, and what was missing is missing.
-/

namespace Marginalia.FileTree

open Marginalia.Path (Ending)

/-- One tree has become another one with the same ways, where nothing has come. -/
structure ThinsTo (t t' : FileTree) : Prop where
  ways : t.SameWays t'
  vacant : ∀ q, t.at? q = none → t'.at? q = none

variable {t t' t₁ : FileTree} {follow : Ending → Bool} {e : Ending}
  {expand expand' : Location → List String → Ending → Except FileError Destination}

/-! ### Paths that lead nowhere -/

theorem goAlong_notFound (h : t.ThinsTo t')
    (hexpand : ∀ {here names e}, expand here names e = .error .notFound →
      expand' here names e = .error .notFound)
    {here : Location} {names : List String}
    (hgo : goAlong t follow e expand here names = .error .notFound) :
    goAlong t' follow e expand' here names = .error .notFound := by
  induction names generalizing here with
  | nil => cases hgo
  | cons name rest ih =>
    rw [goAlong_cons] at hgo ⊢
    split at hgo
    · rename_i hup
      rw [if_pos hup]
      exact ih hgo
    rename_i hup
    rw [if_neg hup]
    split at hgo
    · cases hgo
    rename_i hlong
    rw [if_neg hlong]
    cases hplace : t.at? (here ++ [name]) with
    | none =>
      simp only [hplace] at hgo
      simp only [h.vacant _ hplace]
      exact hgo
    | some there =>
      cases there with
      | directory =>
        simp only [hplace] at hgo
        simp only [h.ways.forth.directory _ hplace]
        exact ih hgo
      | file n c =>
        simp only [hplace] at hgo
        split at hgo <;> cases hgo
      | link target =>
        simp only [hplace] at hgo
        simp only [(h.ways.forth.link _ _).2 hplace]
        split at hgo
        · cases hgo
        · rename_i hlast
          rw [if_neg hlast]
          exact hexpand hgo

theorem goFrom_notFound (h : t.ThinsTo t') {links : Nat} {here : Location} {names : List String}
    (hgo : goFrom t follow links here names e = .error .notFound) :
    goFrom t' follow links here names e = .error .notFound := by
  induction links generalizing here names e with
  | zero => exact goAlong_notFound h (fun herror => by cases herror) hgo
  | succ links ih => exact goAlong_notFound h (fun hgo => ih hgo) hgo

/-- A path that has led nowhere still does. -/
theorem go_notFound (h : t.ThinsTo t') {path : String} (hgo : t.go follow path = .error .notFound) :
    t'.go follow path = .error .notFound := by
  cases hcheck : checkPath path with
  | error err =>
    rw [go_of_checkPath_error hcheck] at hgo ⊢
    exact hgo
  | ok checked =>
    rw [go_of_checkPath hcheck] at hgo ⊢
    rw [startOf_eq h.ways.forth.workingDirectory]
    exact goFrom_notFound h hgo

/-! ### Making directories -/

/-- A directory may be put where nothing stood in either tree. -/
theorem ThinsTo.put_directory (h : t.ThinsTo t') {l : Location} (hl : l ≠ []) :
    (t.put l .directory).ThinsTo (t'.put l .directory) := by
  have hat := at?_put (t := t) hl .directory
  have hat' := at?_put (t := t') hl .directory
  refine ⟨⟨⟨fun q => ?_, fun q target => ?_, h.ways.forth.workingDirectory⟩,
    ⟨fun q => ?_, fun q target => ?_, h.ways.back.workingDirectory⟩⟩, fun q => ?_⟩
  all_goals
    rw [hat, hat']
    split
    · simp
  · exact h.ways.forth.directory q
  · exact h.ways.forth.link q target
  · exact h.ways.back.directory q
  · exact h.ways.back.link q target
  · exact h.vacant q

theorem isDirectory_iff {path : String} :
    t.isDirectory path = true ↔ ∃ d, t.locate path = .ok d ∧ t.at? d.place = some .directory := by
  unfold isDirectory stat find
  cases t.locate path with
  | error err => simp [bind, Except.bind, Except.map]
  | ok d =>
    cases hplace : t.at? d.place with
    | none => simp [bind, Except.bind, Except.map, hplace, throw, throwThe, MonadExceptOf.throw]
    | some there =>
      cases there <;> by_cases hend : d.ending = .name <;>
        simp [bind, Except.bind, Except.map, hplace, hend, pure, Except.pure, throw, throwThe,
          MonadExceptOf.throw]

/-- A directory can still be made, or found made. -/
theorem ThinsTo.makeDirectory (h : t.ThinsTo t') {path : String}
    (hmake : t.makeDirectory path = .ok t₁) :
    ∃ t₁', t'.makeDirectory path = .ok t₁' ∧ t₁.ThinsTo t₁' := by
  unfold FileTree.makeDirectory at hmake ⊢
  cases hd : t.locateLast path with
  | error err => simp [hd, bind, Except.bind] at hmake
  | ok d =>
    have hd' : t'.locateLast path = .ok d := go_mono h.ways.forth hd
    simp only [hd, hd', bind, Except.bind] at hmake ⊢
    cases hplace : t.at? d.place with
    | none =>
      simp only [hplace, h.vacant _ hplace] at hmake ⊢
      obtain rfl := Except.ok.inj hmake
      have hne : d.place ≠ [] := place_ne_nil (t := t) (by simp [hplace])
      exact ⟨_, rfl, h.put_directory hne⟩
    | some there =>
      simp only [hplace] at hmake
      split at hmake
      · rename_i hdirectory
        obtain rfl := Except.ok.inj hmake
        obtain ⟨target, hgo, htarget⟩ := isDirectory_iff.1 hdirectory
        have hdirectory' : t'.isDirectory path = true :=
          isDirectory_iff.2 ⟨target, go_mono h.ways.forth hgo, h.ways.forth.directory _ htarget⟩
        -- what stands there is the directory or a link to it, and is still there
        have hthere : t'.at? d.place = some there := by
          cases there with
          | directory => exact h.ways.forth.directory _ hplace
          | link l => exact (h.ways.forth.link _ _).2 hplace
          | file n c =>
            rcases t.go_follow (fun _ => true) path with hsame | ⟨d', l, hd', hlink⟩
            · obtain rfl := Except.ok.inj ((hsame.symm.trans hgo).symm.trans hd)
              cases htarget.symm.trans hplace
            · obtain rfl := Except.ok.inj (hd'.symm.trans hd)
              cases hlink.symm.trans hplace
        simp only [hthere, hdirectory']
        exact ⟨t', rfl, h⟩
      · cases hmake

theorem ThinsTo.makeDirectory_notFound (h : t.ThinsTo t') {path : String}
    (hmake : t.makeDirectory path = .error .notFound) :
    t'.makeDirectory path = .error .notFound := by
  unfold FileTree.makeDirectory at hmake ⊢
  cases hd : t.locateLast path with
  | error err =>
    rw [hd] at hmake
    obtain rfl : err = .notFound := Except.error.inj hmake
    have hd' : t'.locateLast path = .error .notFound := go_notFound h hd
    rw [hd']
    rfl
  | ok d =>
    simp only [hd, bind, Except.bind] at hmake
    split at hmake
    · cases hmake
    · split at hmake <;> cases hmake

theorem ThinsTo.makeDirectories (h : t.ThinsTo t') {start : String} {names : List String}
    (hmake : t.makeDirectories start names = .ok t₁) :
    ∃ t₁', t'.makeDirectories start names = .ok t₁' ∧ t₁.ThinsTo t₁' := by
  induction names generalizing t₁ with
  | nil =>
    obtain rfl := Except.ok.inj hmake
    exact ⟨t', rfl, h⟩
  | cons name above ih =>
    rw [makeDirectories_cons] at hmake ⊢
    cases hone : t.makeDirectory (Path.ofNames start (name :: above).reverse) with
    | ok t₂ =>
      simp only [hone] at hmake
      obtain rfl := Except.ok.inj hmake
      obtain ⟨t₁', hone', hthins⟩ := h.makeDirectory hone
      simp only [hone']
      exact ⟨t₁', rfl, hthins⟩
    | error err =>
      cases err with
      | notFound =>
        simp only [hone] at hmake
        cases habove : t.makeDirectories start above with
        | error err =>
          rw [habove] at hmake
          cases hmake
        | ok t₂ =>
          rw [habove] at hmake
          obtain ⟨t₂', habove', hthins⟩ := ih habove
          simp only [h.makeDirectory_notFound hone, habove']
          exact hthins.makeDirectory hmake
      | _ =>
        simp only [hone] at hmake
        cases hmake

theorem ThinsTo.makeParents (h : t.ThinsTo t') {path : String}
    (hmake : t.makeParents path = .ok t₁) :
    ∃ t₁', t'.makeParents path = .ok t₁' ∧ t₁.ThinsTo t₁' := h.makeDirectories hmake

/-! ### Replacing a file -/

/-- A text can still be written to one path and moved to another one, whatever text it is. -/
theorem ThinsTo.replace (h : t.ThinsTo t') {temporary path text : String} {t₂ : FileTree}
    (hwrite : t.writeText temporary text = .ok t₁) (hrename : t₁.rename temporary path = .ok t₂)
    (text' : String) :
    ∃ t₁' t₂', t'.writeText temporary text' = .ok t₁' ∧ t₁'.rename temporary path = .ok t₂' := by
  obtain ⟨d, hgo, hend, hfree⟩ := exists_writeText_iff.1 ⟨t₁, hwrite⟩
  have hgo' := go_mono h.ways.forth hgo
  have hfree' : ∀ e, t'.at? d.place = some e → ∃ n c, e = .file n c := by
    intro e he
    cases e with
    | file n c => exact ⟨n, c, rfl⟩
    | directory => exact hfree _ (h.ways.back.directory _ he)
    | link l => exact hfree _ ((h.ways.back.link _ _).2 he)
  obtain ⟨t₁', hwrite'⟩ : ∃ t₁', t'.writeText temporary text' = .ok t₁' :=
    exists_writeText_iff.2 ⟨d, hgo', hend, hfree'⟩
  obtain ⟨d₁, n, hd₁, hwrites⟩ := writeText_eq_ok hwrite
  obtain ⟨d₁', n', hd₁', hwrites'⟩ := writeText_eq_ok hwrite'
  obtain rfl := Except.ok.inj (hgo.symm.trans hd₁)
  obtain rfl := Except.ok.inj (hgo'.symm.trans hd₁')
  have hways : t₁.SameWays t₁' := (hwrites.sameWays.symm.trans h.ways).trans hwrites'.sameWays
  obtain ⟨old, new, e, hold, hnew, he, hne, hthere, -⟩ := rename_eq_ok hrename
  obtain ⟨holdEnd, hnewEnd⟩ := ending_of_rename hrename hold hnew
  -- what is moved is the file that has been written, or a link that was there before
  obtain ⟨e', he', hne'⟩ : ∃ e', t₁'.at? old.place = some e' ∧ e' ≠ .directory := by
    cases e with
    | directory => exact absurd rfl hne
    | link l => exact ⟨_, (hways.forth.link _ _).2 he, by simp⟩
    | file m c =>
      rcases t₁.go_follow (· != .slash) temporary with hsame | ⟨d', l, hd', hlink⟩
      · have hplace := hsame.symm.trans (go_mono hwrites.sameWays.forth hgo)
        obtain rfl := Except.ok.inj (hplace.symm.trans hold)
        exact ⟨_, hwrites'.here, by simp⟩
      · obtain rfl := Except.ok.inj (hd'.symm.trans hold)
        cases hlink.symm.trans he
  obtain ⟨t₂', hrename'⟩ := exists_rename (go_mono hways.forth hold) (go_mono hways.forth hnew)
    holdEnd hnewEnd he' hne' fun hdirectory => hthere (hways.back.directory _ hdirectory)
  exact ⟨t₁', t₂', hwrite', hrename'⟩

end Marginalia.FileTree
