import Marginalia.Proofs.Project.Journal
import Marginalia.Proofs.Project.Stages

/-!
How the work on files advances. The task of a file takes it from stage to stage and may crash
between them, at a call of a service or of the index. However the tasks take turns, each file is at
the stage that its own task has come to, and whatever a task asks of files is answered as if it were
the only one.
-/

namespace Marginalia

/-- A service that never crashes. -/
def NeverCrashes {α : Type} (ask : Service α) : Prop :=
  ∀ calls u message, (ask calls u).result ≠ .crash message

/-- Handing units to the index never crashes. -/
def Index.NeverCrashes (i : Index) : Prop := ∀ ask, i = .service ask → Marginalia.NeverCrashes ask

/-- A call that crashes has a crash as its result. -/
theorem Action.crash_of_ofResult {α : Type} {result : CallResult α} {message : String}
    (h : Action.ofResult result = .error message) : result = .crash message := by
  cases result with
  | answer a => cases h
  | failure e => cases h
  | crash m => rw [Except.error.inj h]

theorem World.tree_afterCall {α : Type} (w : World) {r : Response α} (h : r.edits = []) :
    (w.afterCall r).tree = w.tree := by
  simp [World.afterCall, h]

/-! ### What a task does to files -/

namespace Task

variable {α β : Type}

/-- The task works on a file from stage to stage, may crash where `mayCrash` says so, and what it
ends in fits the stage at its end. -/
def Advances (o : Outset) (f : ParsedFile) (mayCrash : Stage → Prop) (ends : Stage → α → Prop) :
    Stage → Task α → Prop
  | stage, done a => ends stage a
  | stage, act .checkCancel next | stage, act .spend next =>
    ∀ answer, (next answer).Advances o f mayCrash ends stage
  | stage, act (.judge ask _) next =>
    EditsNothing ask ∧ mayCrash stage ∧ ∀ answer, (next answer).Advances o f mayCrash ends stage
  | stage, act (.describe ask _) next =>
    EditsNothing ask ∧ mayCrash stage ∧ ∀ answer, (next answer).Advances o f mayCrash ends stage
  | stage, act (.ingest i _) next =>
    i = o.index ∧ (i.NeverCrashes ∨ mayCrash stage)
      ∧ ∀ answer, (next answer).Advances o f mayCrash ends stage
  | stage, act (.readFile path) next =>
    path = f.file.path ∧ stage = .before
      ∧ (next (.ok f.text)).Advances o f mayCrash ends .before
  | stage, act (.writeFile path text) next =>
    f.hidden? o.dryRun = some path ∧ o.same f text ∧ text ≠ f.text ∧ stage = .before
      ∧ (∀ e, (next (.error e)).Advances o f mayCrash ends .before)
      ∧ (next (.ok ())).Advances o f mayCrash ends (.written text)
  | stage, act (.moveFile source target) next =>
    f.hidden? o.dryRun = some source ∧ target = f.file.path
      ∧ ∃ text, stage = .written text
        ∧ (next (.ok ())).Advances o f mayCrash ends (.moved text)
  | _, act (.removeFile _) _ => False

variable {o : Outset} {f : ParsedFile} {mayCrash : Stage → Prop} {ends : Stage → α → Prop}
  {stage : Stage}

theorem advances_pure {a : α} (h : ends stage a) :
    (pure a : Task α).Advances o f mayCrash ends stage := h

/-- A task in two parts advances as the first part does, and then as the second one does. -/
theorem Advances.bind {ends' : Stage → β → Prop} {t : Task α} {k : α → Task β}
    (h : t.Advances o f mayCrash ends stage)
    (hk : ∀ stage a, ends stage a → (k a).Advances o f mayCrash ends' stage) :
    (t >>= k).Advances o f mayCrash ends' stage := by
  induction t generalizing stage with
  | done a => exact hk stage a h
  | act a next ih =>
    cases a with
    | checkCancel => exact fun answer => ih answer (h answer)
    | spend => exact fun answer => ih answer (h answer)
    | judge ask u => exact ⟨h.1, h.2.1, fun answer => ih answer (h.2.2 answer)⟩
    | describe ask u => exact ⟨h.1, h.2.1, fun answer => ih answer (h.2.2 answer)⟩
    | ingest i u => exact ⟨h.1, h.2.1, fun answer => ih answer (h.2.2 answer)⟩
    | readFile path => exact ⟨h.1, h.2.1, ih _ h.2.2⟩
    | writeFile path text =>
      obtain ⟨hpath, hsame, hne, hstage, herror, hok⟩ := h
      exact ⟨hpath, hsame, hne, hstage, fun e => ih _ (herror e), ih _ hok⟩
    | moveFile source target =>
      obtain ⟨hsource, htarget, text, hstage, hok⟩ := h
      exact ⟨hsource, htarget, text, hstage, ih _ hok⟩
    | removeFile path => exact h.elim

/-- Tasks that stay at a stage, one after the other, stay there. -/
theorem advances_mapM {R : α → β → Prop} {k : α → Task β} {as : List α}
    (h : ∀ a ∈ as, (k a).Advances o f mayCrash (fun stage' b => stage' = stage ∧ R a b) stage) :
    (as.mapM k).Advances o f mayCrash
      (fun stage' bs => stage' = stage ∧ List.Forall₂ R as bs) stage := by
  induction as with
  | nil =>
    rw [List.mapM_nil]
    exact advances_pure ⟨rfl, .nil⟩
  | cons a as ih =>
    rw [List.mapM_cons]
    refine (h a List.mem_cons_self).bind fun stage' b ⟨hstage', hb⟩ => ?_
    subst hstage'
    refine (ih fun a ha => h a (List.mem_cons_of_mem _ ha)).bind fun stage'' bs ⟨hstage, hbs⟩ => ?_
    exact advances_pure ⟨hstage, .cons hb hbs⟩

end Task

/-- Whatever a task asks of files, the answer is known from the start. -/
def Outset.Foretells (o : Outset) (f : ParsedFile) : Deed → Prop
  | ⟨.readFile _, result⟩ => result = .ok (.ok f.text)
  | ⟨.writeFile path text, result⟩ => result = .ok ((o.tree.writeText path text).map fun _ => ())
  | ⟨.moveFile .., result⟩ => result = .ok (.ok ())
  | ⟨.removeFile _, _⟩ => False
  | _ => True

theorem Outset.Foretells.eq {o : Outset} {f : ParsedFile} {d d' : Deed} (h : o.Foretells f d)
    (h' : o.Foretells f d') (hfiles : d.action.isOnFiles = true) (haction : d.action = d'.action) :
    d = d' := by
  obtain ⟨a, result⟩ := d
  obtain ⟨a', result'⟩ := d'
  obtain rfl : a = a' := haction
  cases a with
  | readFile path => exact congrArg _ (h.trans h'.symm)
  | writeFile path text => exact congrArg _ (h.trans h'.symm)
  | moveFile source target => exact congrArg _ (h.trans h'.symm)
  | removeFile path => exact h.elim
  | _ => cases hfiles

namespace Task

variable {α : Type} {o : Outset} {f : ParsedFile} {mayCrash : Stage → Prop}
  {ends : Stage → α → Prop} {stage : Stage}

/-- A task goes on from the stage behind its next action. -/
theorem Advances.answer {a : Action} {next : a.Answer → Task α}
    (h : (act a next).Advances o f mayCrash ends stage) {answer : a.Answer}
    (hd : o.Foretells f ⟨a, .ok answer⟩) :
    (next answer).Advances o f mayCrash ends (stage.next ⟨a, .ok answer⟩) := by
  cases a with
  | checkCancel => exact h answer
  | spend => exact h answer
  | judge ask u => exact h.2.2 answer
  | describe ask u => exact h.2.2 answer
  | ingest i u => exact h.2.2 answer
  | readFile path =>
    obtain ⟨-, rfl, hok⟩ := h
    obtain rfl := Except.ok.inj hd
    exact hok
  | writeFile path text =>
    obtain ⟨-, -, -, rfl, herror, hok⟩ := h
    cases answer with
    | error e => exact herror e
    | ok done => exact hok
  | moveFile source target =>
    obtain ⟨-, -, text, rfl, hok⟩ := h
    obtain rfl := Except.ok.inj hd
    exact hok
  | removeFile path => exact h.elim

/-- A task may crash at the stage at which it crashes. -/
theorem Advances.crash {a : Action} {next : a.Answer → Task α}
    (h : (act a next).Advances o f mayCrash ends stage) {w : World} {message : String}
    (hcrash : (a.perform w).1 = .error message) : mayCrash (stage.next ⟨a, .error message⟩) := by
  cases a with
  | judge ask u => exact h.2.1
  | describe ask u => exact h.2.1
  | ingest i u =>
    refine h.2.1.resolve_left fun hnever => ?_
    cases i with
    | null => cases hcrash
    | file serial => cases hcrash
    | service ask => exact hnever ask rfl w.calls u message (Action.crash_of_ofResult hcrash)
  | checkCancel => cases hcrash
  | spend => cases hcrash
  | readFile path => cases hcrash
  | writeFile path text => cases hcrash
  | moveFile source target => cases hcrash
  | removeFile path => cases hcrash

theorem Advances.leads {t t' : Task α} {ds : List Deed} (h : t.Leads ds t')
    (ht : t.Advances o f mayCrash ends stage) (hds : ∀ d ∈ ds, o.Foretells f d) :
    t'.Advances o f mayCrash ends (ds.foldl .next stage) := by
  induction h generalizing stage with
  | start => exact ht
  | act rest ih =>
    refine ih (ht.answer (hds _ List.mem_cons_self)) fun d hd => ?_
    exact hds d (List.mem_cons_of_mem _ hd)

/-- What a task comes to fits the stage behind all that it has done. -/
theorem Advances.course {t : Task α} {ds : List Deed} {e : Except String α} (h : t.Course ds e)
    (ht : t.Advances o f mayCrash ends stage) (hds : ∀ d ∈ ds, o.Foretells f d) :
    (∀ a, e = .ok a → ends (ds.foldl .next stage) a)
      ∧ ∀ message, e = .error message → mayCrash (ds.foldl .next stage) := by
  induction h generalizing stage with
  | done a => exact ⟨fun b hb => Except.ok.inj hb ▸ ht, fun _ he => by cases he⟩
  | act rest ih =>
    refine ih (ht.answer (hds _ List.mem_cons_self)) fun d hd => ?_
    exact hds d (List.mem_cons_of_mem _ hd)
  | crash crashed => exact ⟨fun _ he => (by cases he), fun _ _ => ht.crash crashed⟩

end Task

namespace Outset

variable {o : Outset} {f : ParsedFile} {t t' : FileTree} {stage : ParsedFile → Stage}

/-! ### One action -/

/-- Whatever the next action of a task is, it is answered as foretold, and the file comes to the
stage behind it. -/
theorem Tracks.perform (hp : o.Workplaces) (hf : o.worked f) {w : World}
    (h : o.Tracks stage w.tree) (hindex : ∀ ask, o.index = .service ask → EditsNothing ask)
    {α : Type} {mayCrash : Stage → Prop} {ends : Stage → α → Prop} {a : Action}
    {next : a.Answer → Task α} (htask : (Task.act a next).Advances o f mayCrash ends (stage f)) :
    o.Foretells f ⟨a, (a.perform w).1⟩
      ∧ o.Tracks (Function.update stage f ((stage f).next ⟨a, (a.perform w).1⟩))
        (a.perform w).2.tree := by
  have hstill {t' : FileTree} (htree : t' = w.tree) :
      o.Tracks (Function.update stage f (stage f)) t' := by
    rw [Function.update_eq_self, htree]
    exact h
  cases a with
  | checkCancel => exact ⟨trivial, hstill rfl⟩
  | spend => exact ⟨trivial, hstill rfl⟩
  | judge ask u => exact ⟨trivial, hstill (w.tree_afterCall (htask.1 _ _))⟩
  | describe ask u => exact ⟨trivial, hstill (w.tree_afterCall (htask.1 _ _))⟩
  | readFile path =>
    obtain ⟨rfl, hstage, -⟩ := htask
    exact ⟨congrArg Except.ok (h.readText hp hf hstage), hstill rfl⟩
  | writeFile path text =>
    obtain ⟨hpath, hsame, hne, hstage, -⟩ := htask
    have hforetold := h.writeText_eq hp hf hstage hpath text
    cases hwrite : w.tree.writeText path text with
    | error e =>
      rw [hwrite] at hforetold
      simp only [Action.perform, World.change, hwrite]
      exact ⟨congrArg Except.ok hforetold, hstill rfl⟩
    | ok t' =>
      rw [hwrite] at hforetold
      simp only [Action.perform, World.change, hwrite]
      exact ⟨congrArg Except.ok hforetold, h.writeText hp hf hstage hpath hsame hne hwrite⟩
  | moveFile source target =>
    obtain ⟨hsource, rfl, text, hstage, -⟩ := htask
    obtain ⟨t', hrename, hmoved⟩ := h.rename hp hf hstage hsource
    simp only [Action.perform, World.change, hrename]
    refine ⟨rfl, ?_⟩
    rw [hstage]
    exact hmoved
  | removeFile path => exact htask.elim
  | ingest i u =>
    obtain ⟨rfl, -, -⟩ := htask
    refine ⟨trivial, ?_⟩
    cases hi : o.index with
    | null => exact hstill rfl
    | file serial =>
      change o.Tracks (Function.update stage f (stage f)) _
      rw [Function.update_eq_self]
      exact h.change_index hp hi _
    | service ask => exact hstill (w.tree_afterCall (hindex ask hi _ _))

end Outset

/-! ### All files -/

namespace Crew

variable {s : Workshop} {places : Nat} {o : Outset} {mayCrash : Stage → Prop}
  {ends : ParsedFile → Stage → FileOutcome → Prop} (hp : o.Workplaces)
  (hindex : ∀ ask, o.index = .service ask → EditsNothing ask)
  (hwork : ∀ f, o.worked f → (s.work f).Advances o f mayCrash (ends f) .before)

include hp hindex hwork

omit hp hindex in
/-- A task under way advances from the stage that it has come to. -/
theorem Recounts.advances {c : Crew} {log : List (ParsedFile × Deed)} (h : Recounts s log c)
    (hlog : ∀ x ∈ log, o.Foretells x.1 x.2) {u : Underway} (hu : u ∈ c.underway)
    (hf : o.worked u.file) :
    u.rest.Advances o u.file mayCrash (ends u.file) (.after (deedsOf log u.file)) :=
  Task.Advances.leads (h.underway u hu) (hwork u.file hf) fun _ hd => hlog _ (mem_deedsOf.1 hd)

/-- A task that does its next action takes its own file to the stage behind it. -/
theorem Recounts.perform {waiting : List (ParsedFile × Nat)} {before after : List Underway}
    {f : ParsedFile} {number : Nat} {a : Action} {next : a.Answer → Task FileOutcome}
    {ended : List Ended} {w : World} {log : List (ParsedFile × Deed)}
    (h : Recounts s log ⟨waiting, before ++ ⟨f, number, .act a next⟩ :: after, ended⟩)
    (htracks : o.Tracks (fun f => .after (deedsOf log f)) w.tree)
    (hlog : ∀ x ∈ log, o.Foretells x.1 x.2) (hf : o.worked f) :
    o.Tracks (fun g => .after (deedsOf (log ++ [(f, ⟨a, (a.perform w).1⟩)]) g)) (a.perform w).2.tree
      ∧ ∀ x ∈ log ++ [(f, ⟨a, (a.perform w).1⟩)], o.Foretells x.1 x.2 := by
  obtain ⟨hforetold, hnow⟩ := htracks.perform hp hf hindex
    (h.advances hwork hlog (u := ⟨f, number, .act a next⟩) (by simp) hf)
  refine ⟨?_, fun x hx => ?_⟩
  · convert hnow using 1
    funext g
    by_cases hg : g = f
    · rw [hg, Function.update_self, deedsOf_concat_self]
      exact List.foldl_concat ..
    · rw [Function.update_of_ne hg, deedsOf_concat_of_ne hg]
  · rcases List.mem_append.1 hx with hx | hx
    · exact hlog x hx
    · rw [List.mem_singleton.1 hx]
      exact hforetold

theorem Turn.tracks {x y : Crew × World} {log now : List (ParsedFile × Deed)}
    (hturn : Turn s places x now y) (h : Recounts s log x.1)
    (htracks : o.Tracks (fun f => .after (deedsOf log f)) x.2.tree)
    (hlog : ∀ x ∈ log, o.Foretells x.1 x.2) (hjobs : ∀ job ∈ x.1.jobs, o.worked job.1) :
    o.Tracks (fun f => .after (deedsOf (log ++ now) f)) y.2.tree
      ∧ ∀ x ∈ log ++ now, o.Foretells x.1 x.2 := by
  cases hturn with
  | begin free =>
    rw [List.append_nil]
    exact ⟨htracks, hlog⟩
  | @act waiting before after f number a next ended w w' answer done =>
    have hperform := h.perform hp hindex hwork htracks hlog (hjobs (f, number) (by simp [jobs]))
    rwa [done] at hperform
  | @crash waiting before after f number a next ended w w' message crashed =>
    have hperform := h.perform hp hindex hwork htracks hlog (hjobs (f, number) (by simp [jobs]))
    rwa [crashed] at hperform
  | finish =>
    rw [List.append_nil]
    exact ⟨htracks, hlog⟩
  | request stop =>
    rw [List.append_nil]
    exact ⟨htracks, hlog⟩

/-- However the tasks take turns, each file is at the stage behind all that has been done on it, and
whatever was asked of files has been answered as foretold. -/
theorem Journal.tracks {files : List (ParsedFile × Nat)} {w : World} {y : Crew × World}
    {log : List (ParsedFile × Deed)} (h : Journal s places (.start files, w) log y)
    (hstart : o.Tracks (fun _ => .before) w.tree) (hfiles : ∀ job ∈ files, o.worked job.1)
    (hnodup : (files.map (·.1)).Nodup) :
    o.Tracks (fun f => .after (deedsOf log f)) y.2.tree ∧ ∀ x ∈ log, o.Foretells x.1 x.2 := by
  induction h with
  | start => exact ⟨hstart, fun x hx => absurd hx List.not_mem_nil⟩
  | turn before turn ih =>
    refine turn.tracks hp hindex hwork (before.recounts hnodup) ih.1 ih.2 fun job hjob => ?_
    exact hfiles job (before.perm_jobs.mem_iff.1 hjob)

/-- What became of a file fits the stage at which it was left. -/
theorem Journal.fits {files : List (ParsedFile × Nat)} {w : World} {y : Crew × World}
    {log : List (ParsedFile × Deed)} (h : Journal s places (.start files, w) log y)
    (hcrash : ∀ f stage number message, mayCrash stage → ends f stage (.crashed number f message))
    (hstart : o.Tracks (fun _ => .before) w.tree) (hfiles : ∀ job ∈ files, o.worked job.1)
    (hnodup : (files.map (·.1)).Nodup) :
    ∀ e ∈ y.1.ended, ends e.file (.after (deedsOf log e.file)) e.outcome := by
  obtain ⟨-, hlog⟩ := h.tracks hp hindex hwork hstart hfiles hnodup
  intro e he
  have hjob : (e.file, e.number) ∈ files := by
    refine h.perm_jobs.mem_iff.1 (List.mem_append_right _ (List.mem_map.2 ⟨e, he, rfl⟩))
  obtain ⟨r, hcourse, houtcome⟩ := (h.recounts hnodup).ended e he
  obtain ⟨hends, hcrashed⟩ := (hwork e.file (hfiles _ hjob)).course hcourse fun d hd =>
    hlog _ (mem_deedsOf.1 hd)
  rw [houtcome]
  cases r with
  | ok o => exact hends o rfl
  | error message => exact hcrash _ _ _ _ (hcrashed message rfl)

end Crew

end Marginalia
