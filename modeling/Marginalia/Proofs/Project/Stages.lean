import Mathlib.Logic.Function.Basic
import Marginalia.Proofs.Project.History
import Marginalia.Proofs.Project.Places
import Marginalia.Proofs.Task

/-!
How far the work on files has come. A file is as it was until the hidden file beside it is moved to
its place, which is done once and cannot fail when the text has been written. So at every moment it
is known to the letter what each file holds that is worked on.
-/

namespace Marginalia

/-- How far the work on a file has come, as far as files are concerned. -/
inductive Stage where
  /-- The file and the hidden file beside it are as they were. -/
  | before
  /-- The hidden file holds a text. -/
  | written (text : String)
  /-- The text has been moved to the file. -/
  | moved (text : String)
  deriving DecidableEq

namespace Stage

/-- The file holds another text than before. -/
def isMoved : Stage → Bool
  | moved _ => true
  | _ => false

/-- The stage behind a deed. -/
def next (stage : Stage) : Deed → Stage
  | ⟨.writeFile _ text, .ok (.ok ())⟩ => .written text
  | ⟨.moveFile .., .ok (.ok ())⟩ =>
    match stage with
    | written text => .moved text
    | _ => stage
  | _ => stage

/-- How far the work has come by all that has been done on the file. -/
def after (ds : List Deed) : Stage := ds.foldl next .before

/-- What has nothing to do with files leaves the file at its stage. -/
theorem foldl_next_of_not_isOnFiles {ds : List Deed} (h : ∀ d ∈ ds, d.action.isOnFiles = false)
    (stage : Stage) : ds.foldl next stage = stage := by
  induction ds with
  | nil => rfl
  | cons d ds ih =>
    have hd := h d List.mem_cons_self
    have hnext : stage.next d = stage := by
      obtain ⟨a, result⟩ := d
      cases a with
      | writeFile path text => cases hd
      | moveFile source target => cases hd
      | _ => rfl
    rw [List.foldl_cons, hnext]
    exact ih fun d hd => h d (List.mem_cons_of_mem _ hd)

/-- What stands at the places of a file at a stage. -/
def Shows (o : Outset) (f : ParsedFile) (t : FileTree) : Stage → Prop
  | before => ∀ q, f.StandsAt o.tree q ∨ o.HidesAt f q → t.at? q = o.tree.at? q
  | written text => text ≠ f.text ∧ o.same f text
    ∧ (∀ q, f.StandsAt o.tree q → t.at? q = o.tree.at? q)
    ∧ ∃ q n, o.HidesAt f q ∧ t.at? q = some (.file n (.text text))
  | moved text => text ≠ f.text
    ∧ (∀ q, f.StandsAt o.tree q → ∃ n, t.at? q = some (.file n (.text text))
      ∧ ∀ c, o.tree.at? q ≠ some (.file n c))
    ∧ ∀ q, o.HidesAt f q → t.at? q = none

variable {o : Outset} {f : ParsedFile} {t t' : FileTree} {stage : Stage}

/-- Only the places of the file matter. -/
theorem Shows.congr (h : stage.Shows o f t)
    (hsame : ∀ q, f.StandsAt o.tree q ∨ o.HidesAt f q → t'.at? q = t.at? q) :
    stage.Shows o f t' := by
  cases stage with
  | before => exact fun q hq => (hsame q hq).trans (h q hq)
  | written text =>
    obtain ⟨hne, hcounts, hstands, q, n, hq, htext⟩ := h
    exact ⟨hne, hcounts, fun q hq => (hsame q (.inl hq)).trans (hstands q hq), q, n, hq,
      (hsame q (.inr hq)).trans htext⟩
  | moved text =>
    obtain ⟨hne, hstands, hhides⟩ := h
    refine ⟨hne, fun q hq => ?_, fun q hq => (hsame q (.inr hq)).trans (hhides q hq)⟩
    rw [hsame q (.inl hq)]
    exact hstands q hq

end Stage

namespace Outset

variable {o : Outset} {f g : ParsedFile} {t t' : FileTree} {stage : ParsedFile → Stage}

/-! ### All files -/

/-- Everything is intact, each file that is worked on is at its stage, and where nothing stood
nothing has come, hidden files apart. -/
structure Tracks (o : Outset) (stage : ParsedFile → Stage) (t : FileTree) : Prop where
  intact : o.Intact t
  shows : ∀ f, o.worked f → (stage f).Shows o f t
  vacant : ∀ q, o.tree.at? q = none → (∀ f, o.worked f → ¬o.HidesAt f q) → t.at? q = none

theorem tracks_start (h : o.Intact o.tree) : o.Tracks (fun _ => .before) o.tree :=
  ⟨h, fun _ _ _ _ => rfl, fun _ hq _ => hq⟩

/-- What a worker does changes nothing at the places of other files. -/
theorem ChangesOwn.at?_eq (hc : o.ChangesOwn f t t') (hp : o.Workplaces) (hf : o.worked f)
    (hg : o.worked g) (hne : g ≠ f) {q : Location} (hq : g.StandsAt o.tree q ∨ o.HidesAt g q) :
    t'.at? q = t.at? q := by
  rcases hq with hq | hq
  · exact hc.elsewhere q (fun hq' => hne (hp.stands_injective hg hf hq hq'))
      fun hq' => hp.hides_ne_stands hf hg hq' hq rfl
  · exact hc.elsewhere q (fun hq' => hp.hides_ne_stands hg hf hq hq' rfl)
      fun hq' => hne (hp.hides_injective hg hf hq hq')

/-- Only the stages of the files that are worked on matter. -/
theorem Tracks.congr (h : o.Tracks stage t) {stage' : ParsedFile → Stage}
    (hsame : ∀ f, o.worked f → stage' f = stage f) : o.Tracks stage' t := by
  refine ⟨h.intact, ?_, h.vacant⟩
  intro f hf
  rw [hsame f hf]
  exact h.shows f hf

/-- A worker takes its own file to another stage and leaves the others at theirs. -/
theorem Tracks.changesOwn (h : o.Tracks stage t) (hp : o.Workplaces) (hf : o.worked f)
    (hc : o.ChangesOwn f t t') {now : Stage} (hnow : now.Shows o f t') :
    o.Tracks (Function.update stage f now) t' where
  intact := h.intact.changesOwn hp hf hc
  shows g hg := by
    by_cases hne : g = f
    · subst hne
      rwa [Function.update_self]
    · rw [Function.update_of_ne hne]
      exact (h.shows g hg).congr fun q hq => hc.at?_eq hp hf hg hne hq
  vacant q hq hhides := by
    refine (hc.elsewhere q (fun hstands => ?_) (hhides f hf)).trans (h.vacant q hq hhides)
    obtain ⟨n, hn⟩ := hstands.file
    cases hq.symm.trans hn

/-- Adding to the index leaves all files at their stages. -/
theorem Tracks.change_index (h : o.Tracks stage t) (hp : o.Workplaces) {serial : Nat}
    (hindex : o.index = .file serial) (add : Content → Content) :
    o.Tracks stage (t.change serial add) where
  intact := h.intact.change_index hp hindex add
  shows g hg := by
    refine (h.shows g hg).congr fun q hq => ?_
    rw [FileTree.at?_change]
    refine FileTree.map_change_eq_self fun c hc => ?_
    rcases hq with hq | hq
    · obtain ⟨n, text, htext, -⟩ := h.intact.work g q hg hq
      obtain ⟨rfl, -⟩ := Entry.file.inj (Option.some.inj (hc.symm.trans htext))
      rcases h.intact.origin q serial _ hc with ⟨c₀, hq₀⟩ | ⟨hother, -⟩
      · exact hp.stands_index hg hq hq₀ hindex
      · exact hother hindex
    · exact (h.intact.hides_alone hp hg hq hc).1 hindex
  vacant q hq hhides := by
    rw [FileTree.at?_change, h.vacant q hq hhides]
    rfl

/-! ### Own files -/

/-- The path of a file still leads to its place. -/
theorem Tracks.located (h : o.Tracks stage t) {place : Location}
    (hplace : f.StandsAt o.tree place) : t.locateLast f.file.path = .ok ⟨place, .name⟩ :=
  FileTree.go_mono h.intact.ways.forth hplace.located

section

variable (h : o.Tracks stage t) (hp : o.Workplaces) (hf : o.worked f)

include h hp hf

/-- A file that is as it was can be read. -/
theorem Tracks.readText (hstage : stage f = .before) : t.readText f.file.path = .ok f.text := by
  obtain ⟨place, hplace⟩ := hp.stands hf
  obtain ⟨n, hfile⟩ := hplace.file
  have hshows := h.shows f hf
  rw [hstage] at hshows
  exact FileTree.readText_of_locateLast (h.located hplace)
    ((hshows place (.inl hplace)).trans hfile)

/-- Whether the hidden file can be written, and why not, is known from the start. -/
theorem Tracks.writeText_eq (hstage : stage f = .before) {beside : String}
    (hbeside : f.hidden? o.dryRun = some beside) (text : String) :
    (t.writeText beside text).map (fun _ => ())
      = (o.tree.writeText beside text).map fun _ => () := by
  have hgo := h.intact.go_hidden hp hf hbeside
  have hshows := h.shows f hf
  rw [hstage] at hshows
  refine FileTree.writeText_congr hgo (fun d hd => ?_) text
  exact hshows d.place (.inr (h.intact.hides_of_go hp hf hbeside (hgo.trans hd)))

/-- Writing another text to the hidden file leaves the file as it was. -/
theorem Tracks.writeText (hstage : stage f = .before) {beside text : String}
    (hbeside : f.hidden? o.dryRun = some beside) (hsame : o.same f text) (hne : text ≠ f.text)
    (hwrite : t.writeText beside text = .ok t') :
    o.Tracks (Function.update stage f (.written text)) t' := by
  have hc := h.intact.changesOwn_writeText hp hf hbeside hwrite
  obtain ⟨place, n, hplace, hwrites, helsewhere, -⟩ :=
    h.intact.writeText_hidden hp hf hbeside hwrite
  have hshows := h.shows f hf
  rw [hstage] at hshows
  refine h.changesOwn hp hf hc ⟨hne, hsame, fun q hq => ?_, place, n, hplace, hwrites.here⟩
  have hother : q ≠ place := fun hq' => hp.hides_ne_stands hf hf hplace hq hq'.symm
  exact (helsewhere q hother).trans (hshows q (.inl hq))

/-- A hidden file that has been written can be moved to its place. -/
theorem Tracks.rename {text : String} (hstage : stage f = .written text) {beside : String}
    (hbeside : f.hidden? o.dryRun = some beside) :
    ∃ t', t.rename beside f.file.path = .ok t'
      ∧ o.Tracks (Function.update stage f (.moved text)) t' := by
  obtain ⟨place, hplace⟩ := hp.stands hf
  have hshows := h.shows f hf
  rw [hstage] at hshows
  obtain ⟨hne, hsame, hstands, q, n, hq, htext⟩ := hshows
  have hnew := h.located hplace
  obtain ⟨m, hfile⟩ := hplace.file
  have hthere := (hstands place hplace).trans hfile
  obtain ⟨d, hold, rfl⟩ : ∃ d, t.locateLast beside = .ok d ∧ d.place = q := by
    obtain ⟨path, d, hpath, hd, rfl⟩ := hq
    obtain rfl := Option.some.inj (hpath.symm.trans hbeside)
    exact ⟨d, FileTree.go_mono h.intact.ways.forth hd, rfl⟩
  have hend : d.ending = .name := by
    obtain ⟨-, -, -, -, -, -, hending, -⟩ :=
      Path.names_of_besidePath? (ParsedFile.besidePath?_of_hidden? hbeside)
    rw [FileTree.ending_of_locateLast hold, hending]
  have hapart : d.place ≠ place := hp.hides_ne_stands hf hf hq hplace
  obtain ⟨t', hrename⟩ := FileTree.exists_rename hold hnew hend rfl htext (by simp)
    (by simp [hthere])
  refine ⟨t', hrename, ?_⟩
  have hc := h.intact.changesOwn_rename hp hf hbeside ⟨d.place, n, text, hq, htext, hsame⟩ hrename
  obtain ⟨old, new, e, hold', hnew', he, -, -, hat, -⟩ := FileTree.rename_eq_ok hrename
  obtain rfl := Except.ok.inj (hold.symm.trans hold')
  obtain rfl := Except.ok.inj (hnew.symm.trans hnew')
  obtain rfl := Option.some.inj (htext.symm.trans he)
  -- the hidden file has no other name, so it is not the one that stood at the place
  have halone := (h.intact.hides_alone hp hf hq htext).2
  refine h.changesOwn hp hf hc ⟨hne, fun q' hq' => ⟨n, ?_, fun c hc => ?_⟩, fun q' hq' => ?_⟩
  · have hsamePlace : q' = place := congrArg FileTree.Destination.place
      (Except.ok.inj (hq'.located.symm.trans hplace.located))
    rw [hat, if_pos hsamePlace]
  · exact hp.hides_ne_stands hf hf hq hq' (halone q' c ((hstands q' hq').trans hc)).symm
  · rw [hq'.unique hq, hat, if_neg hapart, if_pos rfl]

end

end Outset

end Marginalia
