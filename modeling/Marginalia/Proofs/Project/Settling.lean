import Marginalia.Proofs.Project.Outcomes
import Marginalia.Proofs.Tree.Resemblance

/-!
What stands where when all tasks have ended. Files that have been moved stand at their places under
numbers of their own, and the hidden files beside them are gone; the index has one line more for
each unit that it has been handed; all else is as it was. So the trees of two runs resemble each
other if the same has been done on each file, and only the lines of the index may come in another
order.
-/

namespace Marginalia

/-! ### What the index has taken in -/

/-- The unit that an action hands to the index. -/
def Action.offered? : Action → Option CodeUnit
  | ingest _ u => some u
  | _ => none

/-- The units that have been handed to the index, in the order in which they were. -/
def unitsOffered (log : List (ParsedFile × Deed)) : List CodeUnit :=
  log.filterMap (·.2.action.offered?)

theorem unitsOffered_concat (log : List (ParsedFile × Deed)) (f : ParsedFile) (d : Deed) :
    unitsOffered (log ++ [(f, d)]) = unitsOffered log ++ d.action.offered?.toList := by
  unfold unitsOffered
  rw [List.filterMap_append]
  cases h : d.action.offered? <;> simp [h]

/-- The content with a line for each of the units behind it. -/
def Content.withLines (c : Content) (units : List CodeUnit) : Content :=
  units.foldl (fun c u => c.append (Index.line u)) c

theorem Content.withLines_append (c : Content) (units more : List CodeUnit) :
    c.withLines (units ++ more) = (c.withLines units).withLines more := List.foldl_append

namespace Index

/-- The entry with a line for each of the units, if it is the index file. -/
def extend (units : List CodeUnit) : Index → Entry → Entry
  | file n, e => e.change n (·.withLines units)
  | _, e => e

variable {i : Index} {units : List CodeUnit} {n : Nat} {c : Content}

theorem extend_index (h : i = .file n) :
    i.extend units (.file n c) = .file n (c.withLines units) := by
  rw [h]
  simp [extend, Entry.change]

theorem extend_of_ne (h : i ≠ .file n) : i.extend units (.file n c) = .file n c := by
  cases i with
  | file m =>
    have hn : n ≠ m := fun hn => h (hn ▸ rfl)
    simp [extend, Entry.change, hn]
  | _ => rfl

theorem exists_extend (i : Index) (units : List CodeUnit) (n : Nat) (c : Content) :
    ∃ c', i.extend units (.file n c) = .file n c' := by
  by_cases h : i = .file n
  · exact ⟨_, extend_index h⟩
  · exact ⟨_, extend_of_ne h⟩

theorem extend_directory : i.extend units .directory = .directory := by
  cases i <;> rfl

theorem extend_link {target : String} : i.extend units (.link target) = .link target := by
  cases i <;> rfl

/-- Nothing else than the index is extended. -/
theorem map_extend_eq_self {e : Option Entry} (h : ∀ n c, e = some (.file n c) → i ≠ .file n) :
    e.map (i.extend units) = e := by
  cases e with
  | none => rfl
  | some e =>
    cases e with
    | directory => rw [Option.map_some, extend_directory]
    | link target => rw [Option.map_some, extend_link]
    | file n c => rw [Option.map_some, extend_of_ne (h n c rfl)]

theorem exists_of_map_extend {e : Option Entry} (h : e.map (i.extend units) = some (.file n c)) :
    ∃ c₀, e = some (.file n c₀) := by
  cases i with
  | file m => exact FileTree.file_of_map_change h
  | _ => exact ⟨c, by simpa [extend] using h⟩

/-- Files hold the same, or they are the index, with the same lines behind what it held before but
in another order. -/
def MayDiffer (i : Index) (n : Nat) (c c' : Content) : Prop :=
  c = c' ∨ i = .file n ∧ ∃ (base : Content) (units units' : List CodeUnit), units.Perm units'
    ∧ c = base.withLines units ∧ c' = base.withLines units'

theorem matches_extend {pairs : Nat → Nat → Prop} {units' : List CodeUnit} {e : Entry}
    (hperm : units.Perm units') (hpairs : ∀ n c, e = .file n c → pairs n n) :
    (i.extend units e).Matches pairs i.MayDiffer (i.extend units' e) := by
  cases e with
  | directory =>
    rw [extend_directory, extend_directory]
    exact .directory
  | link target =>
    rw [extend_link, extend_link]
    exact .link target
  | file n c =>
    by_cases h : i = .file n
    · rw [extend_index h, extend_index h]
      exact .file (hpairs n c rfl) (.inr ⟨h, c, units, units', hperm, rfl, rfl⟩)
    · rw [extend_of_ne h, extend_of_ne h]
      exact .file (hpairs n c rfl) (.inl rfl)

end Index

namespace Outset

variable {o : Outset} {f : ParsedFile} {t t' : FileTree} {stage : ParsedFile → Stage}

theorem Workplaces.index_apart (hp : o.Workplaces) (hf : o.worked f) {q : Location} {n : Nat}
    {c : Content} (hn : o.index = .file n) (hq : o.tree.at? q = some (.file n c)) :
    ¬f.StandsAt o.tree q ∧ ¬o.HidesAt f q :=
  ⟨fun hstands => hp.stands_index hf hstands hq hn,
    fun hhides => (hp.hides_alone hf hhides hq).1 hn⟩

/-- Nothing but a unit that is handed to it changes the index. -/
theorem Tracks.at?_perform_index (hp : o.Workplaces) (hf : o.worked f) {w : World}
    (h : o.Tracks stage w.tree) {α : Type} {mayCrash : Stage → Prop} {ends : Stage → α → Prop}
    {a : Action} {next : a.Answer → Task α}
    (htask : (Task.act a next).Advances o f mayCrash ends (stage f))
    {q : Location} {n : Nat} {c c₀ : Content} (hn : o.index = .file n)
    (hstart : o.tree.at? q = some (.file n c₀)) (hq : w.tree.at? q = some (.file n c)) :
    (a.perform w).2.tree.at? q = some (.file n (c.withLines a.offered?.toList)) := by
  obtain ⟨hstands, hhides⟩ := hp.index_apart hf hn hstart
  cases a with
  | checkCancel => exact hq
  | spend => exact hq
  | readFile path => exact hq
  | judge ask u => exact (congrArg (·.at? q) (w.tree_afterCall (htask.1 _ _))).trans hq
  | describe ask u => exact (congrArg (·.at? q) (w.tree_afterCall (htask.1 _ _))).trans hq
  | writeFile path text =>
    obtain ⟨hpath, -⟩ := htask
    cases hwrite : w.tree.writeText path text with
    | error e =>
      simp only [Action.perform, World.change, hwrite]
      exact hq
    | ok t' =>
      simp only [Action.perform, World.change, hwrite]
      exact ((h.intact.changesOwn_writeText hp hf hpath hwrite).elsewhere q hstands hhides).trans hq
  | moveFile source target =>
    obtain ⟨hsource, rfl, text, hstage, -⟩ := htask
    have hshows := h.shows f hf
    rw [hstage] at hshows
    obtain ⟨-, hsame, -, place, m, hplace, htext⟩ := hshows
    obtain ⟨t', hrename, -⟩ := h.rename hp hf hstage hsource
    have hc := h.intact.changesOwn_rename hp hf hsource ⟨place, m, text, hplace, htext, hsame⟩
      hrename
    simp only [Action.perform, World.change, hrename]
    exact (hc.elsewhere q hstands hhides).trans hq
  | removeFile path => exact htask.elim
  | ingest i u =>
    obtain ⟨rfl, -, -⟩ := htask
    simp only [hn, Action.perform, Index.ingest]
    rw [FileTree.at?_change, hq]
    simp [Entry.change, Action.offered?, Content.withLines]

end Outset

/-- The index has a line for each unit that it has been handed. -/
theorem Crew.Journal.at?_index {s : Workshop} {places : Nat} {o : Outset} {mayCrash : Stage → Prop}
    {ends : ParsedFile → Stage → FileOutcome → Prop} (hp : o.Workplaces)
    (hindex : ∀ ask, o.index = .service ask → EditsNothing ask)
    (hwork : ∀ f, o.worked f → (s.work f).Advances o f mayCrash (ends f) .before)
    {files : List (ParsedFile × Nat)} {w : World} {y : Crew × World}
    {log : List (ParsedFile × Deed)} (h : Journal s places (.start files, w) log y)
    (hstart : o.Tracks (fun _ => .before) w.tree) (hfiles : ∀ job ∈ files, o.worked job.1)
    (hnodup : (files.map (·.1)).Nodup) {q : Location} {n : Nat} {c : Content}
    (hn : o.index = .file n) (hq : o.tree.at? q = some (.file n c))
    (hqstart : w.tree.at? q = some (.file n c)) :
    y.2.tree.at? q = some (.file n (c.withLines (unitsOffered log))) := by
  induction h with
  | start => exact hqstart
  | @turn past now y z before turn ih =>
    obtain ⟨htracks, hlog⟩ := before.tracks hp hindex hwork hstart hfiles hnodup
    rcases turn.idle_or_acts with ⟨rfl, htree⟩ | ⟨u, hu, a, next, hrest, rfl, hz⟩
    · rw [List.append_nil, htree]
      exact ih
    · have hjob := hfiles _ (before.perm_jobs.mem_iff.1 (mem_jobs_of_underway hu))
      have htask := (before.recounts hnodup).advances hwork hlog hu hjob
      rw [hrest] at htask
      rw [unitsOffered_concat, Content.withLines_append, hz]
      exact htracks.at?_perform_index hp hjob htask hn hq ih

/-! ### Where all tasks have ended -/

namespace Outset

/-- What stands where at the end: files that have been moved have no other name, their hidden files
are gone, the index has lines for the units that it was handed, and all else is as it was. -/
structure Settles (o : Outset) (stage : ParsedFile → Stage) (units : List CodeUnit) (t : FileTree) :
    Prop where
  moved : ∀ {f text q}, o.worked f → stage f = .moved text → f.StandsAt o.tree q →
    ∃ n, t.at? q = some (.file n (.text text)) ∧ ∀ q' c, t.at? q' = some (.file n c) → q' = q
  gone : ∀ {f text q}, o.worked f → stage f = .moved text → o.HidesAt f q → t.at? q = none
  stays : ∀ q, (∀ f text, o.worked f → stage f = .moved text →
    ¬f.StandsAt o.tree q ∧ ¬o.HidesAt f q) → t.at? q = (o.tree.at? q).map (o.index.extend units)
  numbered : ∀ q n c, t.at? q = some (.file n c) → n < t.nextSerial
  workingDirectory : t.workingDirectory = o.tree.workingDirectory

variable {o : Outset} {stage : ParsedFile → Stage} {units units' : List CodeUnit} {t t' : FileTree}

/-- Where no file with units and no hidden file stands, nothing changes but the index. -/
theorem Tracks.at?_elsewhere (h : o.Tracks stage t)
    (hindexed : ∀ q n c, o.index = .file n → o.tree.at? q = some (.file n c) →
      t.at? q = some (.file n (c.withLines units))) {q : Location}
    (hq : ∀ f, o.worked f → ¬f.StandsAt o.tree q ∧ ¬o.HidesAt f q) :
    t.at? q = (o.tree.at? q).map (o.index.extend units) := by
  cases hthere : o.tree.at? q with
  | none => exact h.vacant q hthere fun f hf => (hq f hf).2
  | some e =>
    cases e with
    | directory =>
      rw [Option.map_some, Index.extend_directory]
      exact h.intact.ways.forth.directory q hthere
    | link target =>
      rw [Option.map_some, Index.extend_link]
      exact (h.intact.ways.forth.link q target).2 hthere
    | file n c =>
      by_cases hn : o.index = .file n
      · rw [Option.map_some, Index.extend_index hn]
        exact hindexed q n c hn hthere
      · rw [Option.map_some, Index.extend_of_ne hn]
        exact h.intact.kept q n c hthere hn hq

/-- Where a file stands that is as it was, or its hidden file, nothing changes, for the index stands
elsewhere. -/
theorem Tracks.at?_of_before (h : o.Tracks stage t) (hp : o.Workplaces) (hf : o.worked f)
    (hbefore : stage f = .before) {q : Location} (hown : f.StandsAt o.tree q ∨ o.HidesAt f q) :
    t.at? q = (o.tree.at? q).map (o.index.extend units) := by
  have hshows := h.shows f hf
  rw [hbefore] at hshows
  rw [hshows q hown, Index.map_extend_eq_self fun n c hthere hn => ?_]
  exact hown.elim (hp.index_apart hf hn hthere).1 (hp.index_apart hf hn hthere).2

/-- Where files are as they were or have been moved, it is known what stands where. -/
theorem Tracks.settles (h : o.Tracks stage t) (hp : o.Workplaces)
    (hsettled : ∀ f, o.worked f → stage f = .before ∨ (stage f).isMoved = true)
    (hindexed : ∀ q n c, o.index = .file n → o.tree.at? q = some (.file n c) →
      t.at? q = some (.file n (c.withLines units))) : o.Settles stage units t where
  moved {f text q} hf hstage hq := by
    have hshows := h.shows f hf
    rw [hstage] at hshows
    obtain ⟨n, htext, hnew⟩ := hshows.2.1 q hq
    rcases h.intact.origin q n _ htext with ⟨c, hold⟩ | ⟨-, halone⟩
    · exact absurd hold (hnew c)
    · exact ⟨n, htext, halone⟩
  gone {f text q} hf hstage hq := by
    have hshows := h.shows f hf
    rw [hstage] at hshows
    exact hshows.2.2 q hq
  stays q hq := by
    by_cases hown : ∃ f, o.worked f ∧ (f.StandsAt o.tree q ∨ o.HidesAt f q)
    · obtain ⟨f, hf, hown⟩ := hown
      refine h.at?_of_before hp hf ((hsettled f hf).resolve_right fun hmoved => ?_) hown
      cases hstage : stage f with
      | moved text => exact hown.elim (hq f text hf hstage).1 (hq f text hf hstage).2
      | _ =>
        rw [hstage] at hmoved
        cases hmoved
    · exact h.at?_elsewhere hindexed fun f hf => not_or.1 fun hq' => hown ⟨f, hf, hq'⟩
  numbered := h.intact.numbered
  workingDirectory := h.intact.ways.forth.workingDirectory

/-- A file with two names has had them from the beginning, under the same number. -/
theorem Settles.exists_of_two_names (h : o.Settles stage units t) {q q' : Location} {n : Nat}
    {c c' : Content} (hne : q' ≠ q) (hq : t.at? q = some (.file n c))
    (hq' : t.at? q' = some (.file n c')) :
    (∀ f text, o.worked f → stage f = .moved text → ¬f.StandsAt o.tree q ∧ ¬o.HidesAt f q)
      ∧ ∃ c₀, o.tree.at? q = some (.file n c₀) := by
  have hstays : ∀ f text, o.worked f → stage f = .moved text →
      ¬f.StandsAt o.tree q ∧ ¬o.HidesAt f q := by
    refine fun f text hf hstage => ⟨fun hstands => ?_, fun hhides => ?_⟩
    · obtain ⟨m, htext, halone⟩ := h.moved hf hstage hstands
      obtain ⟨rfl, -⟩ := Entry.file.inj (Option.some.inj (hq.symm.trans htext))
      exact hne (halone q' c' hq')
    · cases hq.symm.trans (h.gone hf hstage hhides)
  exact ⟨hstays, Index.exists_of_map_extend ((h.stays q hstays).symm.trans hq)⟩

/-- Where a file has the same number under two names, so it has after another run. -/
theorem Settles.number_eq (h : o.Settles stage units t) (h' : o.Settles stage units' t')
    {q q' : Location} {n m m' : Nat} {c c' d d' : Content} (hq : t.at? q = some (.file n c))
    (hq' : t.at? q' = some (.file n c')) (hm : t'.at? q = some (.file m d))
    (hm' : t'.at? q' = some (.file m' d')) : m = m' := by
  by_cases hne : q' = q
  · subst hne
    exact (Entry.file.inj (Option.some.inj (hm.symm.trans hm'))).1
  have hkept {q q' : Location} {m : Nat} {c c' d : Content} (hne : q' ≠ q)
      (hq : t.at? q = some (.file n c)) (hq' : t.at? q' = some (.file n c'))
      (hm : t'.at? q = some (.file m d)) : m = n := by
    obtain ⟨hstays, c₀, hstart⟩ := h.exists_of_two_names hne hq hq'
    obtain ⟨c₁, hsame⟩ := o.index.exists_extend units' n c₀
    have hat := h'.stays q hstays
    rw [hstart, Option.map_some, hsame] at hat
    exact (Entry.file.inj (Option.some.inj (hm.symm.trans hat))).1
  rw [hkept hne hq hq' hm, hkept (Ne.symm hne) hq' hq hm']

/-- The same stands at each place after both runs, under numbers that are paired by the places. -/
theorem Settles.matches_at (h : o.Settles stage units t) (h' : o.Settles stage units' t')
    (hperm : units.Perm units') {pairs : Nat → Nat → Prop}
    (hpairs : ∀ q n m c c', t.at? q = some (.file n c) → t'.at? q = some (.file m c') → pairs n m)
    (q : Location) :
    Option.Rel (Entry.Matches pairs o.index.MayDiffer) (t.at? q) (t'.at? q) := by
  by_cases hstays : ∀ f text, o.worked f → stage f = .moved text →
    ¬f.StandsAt o.tree q ∧ ¬o.HidesAt f q
  · have hq := h.stays q hstays
    have hq' := h'.stays q hstays
    cases hthere : o.tree.at? q with
    | none =>
      rw [hq, hq', hthere]
      exact .none
    | some e =>
      rw [hthere, Option.map_some] at hq hq'
      rw [hq, hq']
      refine .some (Index.matches_extend hperm ?_)
      rintro n c rfl
      obtain ⟨c₁, hc₁⟩ := o.index.exists_extend units n c
      obtain ⟨c₂, hc₂⟩ := o.index.exists_extend units' n c
      exact hpairs q n n c₁ c₂ (hc₁ ▸ hq) (hc₂ ▸ hq')
  · simp only [not_forall] at hstays
    obtain ⟨f, text, hf, hstage, hown⟩ := hstays
    by_cases hstands : f.StandsAt o.tree q
    · obtain ⟨n, hq, -⟩ := h.moved hf hstage hstands
      obtain ⟨m, hq', -⟩ := h'.moved hf hstage hstands
      rw [hq, hq']
      exact .some (.file (hpairs q n m _ _ hq hq') (.inl rfl))
    · have hhides : o.HidesAt f q := by
        by_contra hhides
        exact hown ⟨hstands, hhides⟩
      rw [h.gone hf hstage hhides, h'.gone hf hstage hhides]
      exact .none

/-- Trees in which the same files have been moved resemble each other, if the index has taken in the
same units in some order. -/
theorem Settles.resembles (h : o.Settles stage units t) (h' : o.Settles stage units' t')
    (hperm : units.Perm units') : t.Resembles o.index.MayDiffer t' := by
  refine ⟨fun n m => ∃ q c c', t.at? q = some (.file n c) ∧ t'.at? q = some (.file m c'),
    h.matches_at h' hperm fun q n m c c' hq hq' => ⟨q, c, c', hq, hq'⟩, ?_, ?_, ?_,
    h.workingDirectory.trans h'.workingDirectory.symm⟩
  · rintro n m m' ⟨q, c, d, hq, hm⟩ ⟨q', c', d', hq', hm'⟩
    exact h.number_eq h' hq hq' hm hm'
  · rintro n n' m ⟨q, c, d, hq, hm⟩ ⟨q', c', d', hq', hm'⟩
    exact h'.number_eq h hm hm' hq hq'
  · rintro n m ⟨q, c, d, hq, hm⟩
    exact ⟨h.numbered q n c hq, h'.numbered q m d hm⟩

end Outset

end Marginalia
