import Marginalia.Proofs.Project.Changes

/-!
Asking a run to stop. The work on a file looks whether the run is to stop before the units are
enriched and once more behind that. If it finds so, the file stays as it is and none of its units is
handed to the index; if it does not, the rest of the work is never broken off, and it goes as it
would go in a run that is not asked to stop at all.
-/

namespace Marginalia

/-- The action hands a unit to an index. -/
def Action.isIngest : Action → Bool
  | ingest .. => true
  | _ => false

/-- A look whether the run is asked to stop. -/
def Deed.look (stop : Bool) : Deed := ⟨.checkCancel, .ok stop⟩

/-- The task looked and did not find that the run is asked to stop. -/
def Deed.isPass : Deed → Bool
  | ⟨.checkCancel, .ok stop⟩ => !stop
  | _ => false

theorem Deed.isPass_of_ne {d : Deed} (h : d.action ≠ .checkCancel) : d.isPass = false := by
  obtain ⟨a, result⟩ := d
  cases a with
  | checkCancel => exact absurd rfl h
  | _ => rfl

theorem Deed.look_injective {stop stop' : Bool} (h : look stop = look stop') : stop = stop' :=
  congrArg isStop h

/-- What a file at a stage holds. -/
def Stage.text (f : ParsedFile) : Stage → String
  | before | written _ => f.text
  | moved text => text

theorem Deed.isStop_of_ne {d : Deed} (h : d.action ≠ .checkCancel) : d.isStop = false := by
  obtain ⟨a, result⟩ := d
  cases a with
  | checkCancel => exact absurd rfl h
  | _ => rfl

namespace Workshop

variable {s : Workshop} {f : ParsedFile} {ds es rest : List Deed}
  {enriched : List (CodeUnit × EnrichReport)}

/-! ### Ways through the work on a file -/

/-- The units of the file have been enriched, the run was not found asked to stop before that or
behind it, and the rest has been done since. -/
def Passes (s : Workshop) (f : ParsedFile) (ds : List Deed)
    (enriched : List (CodeUnit × EnrichReport)) (rest : List Deed) : Prop :=
  ∃ es, (f.units.mapM s.enricher.enrich).Course es (.ok enriched)
    ∧ ds = .look false :: (es ++ .look false :: rest)

/-- The work on a file is found to be unwanted before it begins or once the units are enriched, it
crashes between that, or it is completed as it may. -/
theorem course_work {r : Except String FileOutcome} (h : (s.work f).Course ds r) :
    (ds = [.look true] ∧ r = .ok (.untouched f))
      ∨ (∃ es message, ds = .look false :: es
        ∧ (f.units.mapM s.enricher.enrich).Course es (.error message))
      ∨ (∃ es enriched, ds = .look false :: (es ++ [.look true])
        ∧ (f.units.mapM s.enricher.enrich).Course es (.ok enriched)
        ∧ r = .ok (.halted f enriched))
      ∨ ∃ enriched rest, s.Passes f ds enriched rest ∧ (s.complete f enriched).Course rest r := by
  rw [work_eq] at h
  obtain ⟨stop, later, rfl, hlater⟩ := h.of_isCancelled_bind
  cases stop with
  | true =>
    obtain ⟨rfl, rfl⟩ := Task.course_pure hlater
    exact .inl ⟨rfl, rfl⟩
  | false =>
  obtain ⟨message, -, hcrash⟩ | ⟨enriched, es, looked, rfl, hes, hlooked⟩ :=
    Task.Course.of_bind hlater
  · exact .inr (.inl ⟨_, message, rfl, hcrash⟩)
  obtain ⟨stop, rest, rfl, hrest⟩ := hlooked.of_isCancelled_bind
  cases stop with
  | true =>
    obtain ⟨rfl, rfl⟩ := Task.course_pure hrest
    exact .inr (.inr (.inl ⟨es, enriched, rfl, hes, rfl⟩))
  | false => exact .inr (.inr (.inr ⟨enriched, rest, ⟨es, hes, rfl⟩, hrest⟩))

/-- Enriching has nothing to do with files, with the index or with requests to stop. -/
theorem quiet_enriching {units : List CodeUnit}
    {r : Except String (List (CodeUnit × EnrichReport))}
    (h : (units.mapM s.enricher.enrich).Course es r) :
    ∀ d ∈ es, d.action ≠ .checkCancel ∧ d.action.isOnFiles = false
      ∧ d.action.isIngest = false := by
  have hquiet : (units.mapM s.enricher.enrich).Only fun a => a ≠ .checkCancel
      ∧ a.isOnFiles = false ∧ a.isIngest = false := by
    refine Task.only_mapM _ fun u => s.enricher.only_enrich (fun ask _ => ⟨?_, fun u => ?_⟩)
      (fun ask _ => ⟨?_, fun u => ?_⟩) u
    all_goals exact ⟨by simp, rfl, rfl⟩
  exact h.only hquiet

theorem look_not_mem_enriching {units : List CodeUnit}
    {r : Except String (List (CodeUnit × EnrichReport))}
    (h : (units.mapM s.enricher.enrich).Course es r) (stop : Bool) : .look stop ∉ es := fun hlook =>
  (quiet_enriching h _ hlook).1 rfl

/-- What is left to do behind the last look has to do with files and with the index only. -/
theorem busy_completing {r : Except String FileOutcome}
    (h : (s.complete f enriched).Course rest r) :
    ∀ d ∈ rest, d.action.isOnFiles = true ∨ d.action.isIngest = true := by
  have hbusy : (s.complete f enriched).Only fun a => a.isOnFiles = true ∨ a.isIngest = true :=
    s.only_complete (fun _ h => .inl h) (fun _ => .inr rfl) f enriched
  exact h.only hbusy

theorem unstopped_completing {r : Except String FileOutcome}
    (h : (s.complete f enriched).Course rest r) : ∀ d ∈ rest, d.action ≠ .checkCancel := by
  intro d hd hlook
  rcases busy_completing h d hd with hbusy | hbusy <;> rw [hlook] at hbusy <;> cases hbusy

/-- Who has looked twice and passed has come through the last look. -/
theorem exists_passes {r : Except String FileOutcome} (h : (s.work f).Course ds r)
    (hlooks : ds.countP (·.isPass) = 2) : ∃ enriched rest, s.Passes f ds enriched rest := by
  have hnone {es : List Deed} {r : Except String (List (CodeUnit × EnrichReport))}
      (hes : (f.units.mapM s.enricher.enrich).Course es r) : es.countP (·.isPass) = 0 :=
    List.countP_eq_zero.2 fun d hd => by
      simp [Deed.isPass_of_ne (quiet_enriching hes d hd).1]
  rcases course_work h with
    ⟨rfl, -⟩ | ⟨es, message, rfl, hes⟩ | ⟨es, enriched, rfl, hes, -⟩ | ⟨enriched, rest, hpasses, -⟩
  · cases hlooks
  · rw [List.countP_cons, hnone hes] at hlooks
    cases hlooks
  · rw [List.countP_cons, List.countP_append, hnone hes] at hlooks
    cases hlooks
  · exact ⟨enriched, rest, hpasses⟩

namespace Passes

/-- The last look is found in one way. -/
theorem unique {enriched' : List (CodeUnit × EnrichReport)} {rest' : List Deed}
    (h : s.Passes f ds enriched rest) (h' : s.Passes f ds enriched' rest') :
    enriched = enriched' ∧ rest = rest' := by
  obtain ⟨es, hes, rfl⟩ := h
  obtain ⟨es', hes', heq⟩ := h'
  have hnot := look_not_mem_enriching hes false
  have hnot' := look_not_mem_enriching hes' false
  -- there is one look only behind which no other follows
  have hsplit : es = es' ∧ rest = rest' := by
    rcases List.append_eq_append_iff.1 (List.cons.inj heq).2 with
      ⟨more, rfl, hrest⟩ | ⟨more, rfl, hrest⟩
    all_goals
      cases more with
      | nil => simpa [eq_comm] using (List.cons.inj hrest).2
      | cons d more =>
        obtain ⟨rfl, -⟩ := List.cons.inj hrest
        simp at hnot hnot'
  obtain ⟨rfl, rfl⟩ := hsplit
  exact ⟨Except.ok.inj (hes.end_unique hes'), rfl⟩

/-- Behind the last look the work is completed. -/
theorem course {r : Except String FileOutcome} (h : s.Passes f ds enriched rest)
    (hcourse : (s.work f).Course ds r) : (s.complete f enriched).Course rest r := by
  have hpasses := h
  obtain ⟨es, hes, rfl⟩ := h
  rcases course_work hcourse with
    ⟨hds, -⟩ | ⟨es', message, hds, hes'⟩ | ⟨es', enriched', hds, hes', -⟩
      | ⟨enriched', rest', h', hr⟩
  · simp at hds
  · have hnot := look_not_mem_enriching hes' false
    rw [← (List.cons.inj hds).2] at hnot
    simp at hnot
  · have hlook : .look false ∈ es' ++ [.look true] := by
      rw [← (List.cons.inj hds).2]
      simp
    rcases List.mem_append.1 hlook with hlook | hlook
    · exact absurd hlook (look_not_mem_enriching hes' false)
    · cases Deed.look_injective (List.mem_singleton.1 hlook)
  · obtain ⟨rfl, rfl⟩ := hpasses.unique h'
    exact hr

/-- What was done before the last look leaves the file as it was. -/
theorem after_eq (h : s.Passes f ds enriched rest) :
    Stage.after ds = rest.foldl .next .before := by
  obtain ⟨es, hes, rfl⟩ := h
  have hquiet := Stage.foldl_next_of_not_isOnFiles
    (fun d hd => (quiet_enriching hes d hd).2.1) .before
  rw [Stage.after, List.foldl_cons, List.foldl_append, List.foldl_cons]
  exact congrArg (fun stage => rest.foldl Stage.next stage) hquiet

end Passes

/-- Where the work on a file is found to be unwanted, nothing has been asked of files or of the
index, and the outcome tells so. -/
theorem course_of_isStop (hf : ∀ u ∈ f.units, u.IsFresh) {r : Except String FileOutcome}
    (h : (s.work f).Course ds r) (hstop : ∃ d ∈ ds, d.isStop = true) :
    (∀ d ∈ ds, d.action.isOnFiles = false ∧ d.action.isIngest = false)
      ∧ ∃ o, r = .ok o ∧ o.cancelled = true ∧ (∀ u ∈ o.units, u.indexId = none)
        ∧ ∃ d ∈ o.diagnostics, d.kind = .cancelled ∧ d.path = f.file.relative := by
  obtain ⟨d, hd, hstop⟩ := hstop
  have hnot {es : List Deed} {r : Except String (List (CodeUnit × EnrichReport))}
      (hes : (f.units.mapM s.enricher.enrich).Course es r) : d ∉ es := by
    intro hd
    rw [Deed.isStop_of_ne (quiet_enriching hes d hd).1] at hstop
    cases hstop
  rcases course_work h with
    ⟨rfl, rfl⟩ | ⟨es, message, rfl, hes⟩ | ⟨es, enriched, rfl, hes, rfl⟩
      | ⟨enriched, rest, ⟨es, hes, rfl⟩, hrest⟩
  · refine ⟨fun d hd => List.mem_singleton.1 hd ▸ ⟨rfl, rfl⟩, _, rfl, rfl,
      fun u hu => (hf u hu).indexId, _, List.mem_singleton_self _, rfl, rfl⟩
  · rcases List.mem_cons.1 hd with rfl | hd
    · cases hstop
    · exact absurd hd (hnot hes)
  · refine ⟨fun d hd => ?_, _, rfl, rfl, ?_, _, List.mem_append_right _ List.mem_cons_self, rfl,
      rfl⟩
    · rcases List.mem_cons.1 hd with rfl | hd
      · exact ⟨rfl, rfl⟩
      rcases List.mem_append.1 hd with hd | hd
      · exact (quiet_enriching hes d hd).2
      · exact List.mem_singleton.1 hd ▸ ⟨rfl, rfl⟩
    · exact indexId_enriched (hes.endsIn (Task.endsIn_mapM fun u _ => endsIn_enrich s.enricher u))
        fun u hu => (hf u hu).indexId
  · rcases List.mem_cons.1 hd with rfl | hd
    · cases hstop
    rcases List.mem_append.1 hd with hd | hd
    · exact absurd hd (hnot hes)
    rcases List.mem_cons.1 hd with rfl | hd
    · cases hstop
    · rw [Deed.isStop_of_ne (unstopped_completing hrest d hd)] at hstop
      cases hstop

theorem endsIn_complete (s : Workshop) (f : ParsedFile)
    (enriched : List (CodeUnit × EnrichReport)) :
    (s.complete f enriched).EndsIn fun o => o.cancelled = false :=
  (Task.endsIn_true _).bind fun _ _ => (Task.endsIn_true _).bind fun _ _ => Task.endsIn_pure rfl

end Workshop

namespace Project

variable {p : Project} {s : Scan}

/-! ### What a run tells about a file -/

/-- A run that comes to more than a scan has worked on the files of the scan. -/
theorem RunsThrough.exists_concluded {w : World} {log : List (ParsedFile × Deed)}
    {ended : List Ended} {x : Except RunError RunReport × World}
    (h : p.RunsThrough w log ended x) (hscan : p.scan w = .ok s) :
    ∃ w₁, Crew.Journal p.workshop p.config.parallelism (.start (workList s), w) log
        (⟨[], [], ended⟩, w₁)
      ∧ x = p.conclude s (Crew.outcomes ⟨[], [], ended⟩) w₁ := by
  cases h with
  | unscanned scanned => cases hscan.symm.trans scanned
  | @concluded s' log ended w₁ scanned worked =>
    obtain rfl := Except.ok.inj (hscan.symm.trans scanned)
    exact ⟨w₁, worked, rfl⟩

/-- What a run tells about a file that has ended: its task has taken its course, and the file holds
what the task has left there. -/
structure Retells (p : Project) (s : Scan) (w : World) (log : List (ParsedFile × Deed))
    (w' : World) (e : Ended) : Prop where
  job : (e.file, e.number) ∈ workList s
  course : ∃ r, (p.workshop.work e.file).Course (deedsOf log e.file) r
    ∧ e.outcome = .ofEnd e.number e.file r
  foretold : ∀ d ∈ deedsOf log e.file, (p.outset s w.tree).Foretells e.file d
  holds : ∀ place, e.file.IsFoundAt w.tree place → w'.tree.content? place
    = some (.text ((Stage.after (deedsOf log e.file)).text e.file))
  kept : Stage.after (deedsOf log e.file) = .before → ∀ place, e.file.IsFoundAt w.tree place →
    w'.tree.at? place = w.tree.at? place

theorem RunsThrough.retells (hedits : p.workshop.EditsNothing) {w : World}
    (hscan : p.scan w = .ok s) (hclear : p.IsClear s w.tree) {log : List (ParsedFile × Deed)}
    {ended : List Ended} {x : Except RunError RunReport × World}
    (h : p.RunsThrough w log ended x) : ∀ e ∈ ended, p.Retells s w log x.2 e := by
  obtain ⟨w₁, hjournal, rfl⟩ := h.exists_concluded hscan
  obtain ⟨htracks, hlog, hfits⟩ := hclear.hasRoom.tracks hscan hedits hjournal
  have hnodup := hclear.hasRoom.nodup_workList hscan
  intro e he
  have hjob : (e.file, e.number) ∈ workList s :=
    hjournal.perm_ended.mem_iff.1 (List.mem_map_of_mem he)
  have hf := mem_of_mem_workList hjob
  have hshows := htracks.shows e.file hf
  -- the manifest, which is written at the end, leaves the file alone
  have hstays {place : Location} (hplace : e.file.IsFoundAt w.tree place) {n : Nat} {c : Content}
      (hat : w₁.tree.at? place = some (.file n c)) :=
    at?_conclude hclear htracks.intact hat (hclear.sources e.file hf.1 hf.2 place hplace)
      (Crew.outcomes ⟨[], [], ended⟩)
  obtain ⟨place₀, hplace₀⟩ := (hclear.workplaces hscan).stands hf
  have hstands {place : Location} (hplace : e.file.IsFoundAt w.tree place) :
      e.file.StandsAt w.tree place := hplace₀.isFoundAt_iff.1 hplace ▸ hplace₀
  have hkept (hbefore : Stage.after (deedsOf log e.file) = .before) (place : Location)
      (hplace : e.file.IsFoundAt w.tree place) :
      (p.conclude s (Crew.outcomes ⟨[], [], ended⟩) w₁).2.tree.at? place = w.tree.at? place := by
    rw [hbefore] at hshows
    obtain ⟨n, hfile⟩ := (hstands hplace).file
    have hat : w₁.tree.at? place = some (.file n (.text e.file.text)) :=
      (hshows place (.inl (hstands hplace))).trans hfile
    rw [hstays hplace hat, hfile]
  refine ⟨hjob, (hjournal.recounts hnodup).ended e he,
    fun d hd => hlog _ (mem_deedsOf.1 hd), fun place hplace => ?_, hkept⟩
  cases hstage : Stage.after (deedsOf log e.file) with
  | before =>
    obtain ⟨n, hfile⟩ := (hstands hplace).file
    rw [FileTree.content?_of_at? ((hkept hstage place hplace).trans hfile), Stage.text]
  | written text =>
    rcases (hfits e he).settled with hsettled | hsettled <;> rw [hstage] at hsettled <;>
      cases hsettled
  | moved text =>
    rw [hstage] at hshows
    obtain ⟨n, htext, -⟩ := hshows.2.1 place (hstands hplace)
    rw [FileTree.content?_of_at? (hstays hplace htext), Stage.text]

/-! ### The report -/

theorem cancelled_foldl (outcomes : List FileOutcome) (r : RunReport) :
    (outcomes.foldl addOutcome r).cancelled = (r.cancelled || outcomes.any (·.cancelled)) := by
  induction outcomes generalizing r with
  | nil => simp
  | cons o outcomes ih =>
    have hadd : (addOutcome r o).cancelled = (r.cancelled || o.cancelled) := by
      have hverdicts := foldl_addVerdict o.reports
      cases hsync : o.sync <;> simp [addOutcome, hverdicts, hsync, RunReport.addDiagnostics]
    rw [List.foldl_cons, ih, hadd, List.any_cons, Bool.or_assoc]

/-- The report tells what the outcome of a file tells. -/
theorem tells_of_mem_ended {w₁ w' : World} {ended : List Ended} {report : RunReport}
    (hreport : (p.conclude s (Crew.outcomes ⟨[], [], ended⟩) w₁) = (.ok report, w')) {e : Ended}
    (he : e ∈ ended) :
    (e.outcome.cancelled = true → report.cancelled = true)
      ∧ ∀ d ∈ e.outcome.diagnostics, d.path = e.file.file.relative →
        report.tells d.kind e.file.file = true := by
  have hmem : e.outcome ∈ Crew.outcomes ⟨[], [], ended⟩ :=
    List.mem_map_of_mem ((sortBy_perm _ _).mem_iff.2 he)
  obtain rfl := report_of_conclude (congrArg Prod.fst hreport)
  constructor
  · intro hcancelled
    change (List.foldl addOutcome _ _).cancelled = true
    rw [cancelled_foldl, List.any_eq_true.2 ⟨_, hmem, hcancelled⟩, Bool.or_true]
  · intro d hd hpath
    refine List.any_eq_true.2 ⟨d, ?_, by simp [hpath]⟩
    change d ∈ (List.foldl addOutcome _ _).diagnostics
    rw [(foldl_addOutcome _ _).2]
    exact List.mem_append_right _ (List.mem_flatMap.2 ⟨_, hmem, hd⟩)

/-! ### All or nothing -/

/-- A file has been left alone on request: it stands as it stood, nothing has been written for it,
none of its units has gone to the index, and the report tells so. -/
structure LeavesAlone (w : World) (x : Except RunError RunReport × World) (f : ParsedFile)
    (ds : List Deed) (o : FileOutcome) : Prop where
  kept : ∀ place, f.IsFoundAt w.tree place → x.2.tree.at? place = w.tree.at? place
  quiet : ∀ d ∈ ds, d.action.isOnFiles = false ∧ d.action.isIngest = false
  unindexed : ∀ u ∈ o.units, u.indexId = none
  told : ∀ report, x.1 = .ok report →
    report.tells .cancelled f.file = true ∧ report.cancelled = true

/-- The work on a file has been completed behind the last look: no look comes later, and in any run
in which the same units have come so far and the index answers alike, the same is done, with the
same outcome, and the file holds the same in the end. -/
structure Completes (p : Project) (w : World) (x : Except RunError RunReport × World)
    (enriched : List (CodeUnit × EnrichReport)) (rest : List Deed) (e : Ended) : Prop where
  course : ∃ r, (p.workshop.complete e.file enriched).Course rest r
    ∧ e.outcome = .ofEnd e.number e.file r
  unstopped : ∀ d ∈ rest, d.action ≠ .checkCancel
  uncancelled : e.outcome.cancelled = false
  alike : ∀ log' ended' x', p.RunsThrough w log' ended' x' → ∀ rest',
    p.workshop.Passes e.file (deedsOf log' e.file) enriched rest' →
    (∀ d ∈ rest, ∀ d' ∈ rest', d.action.isIngest = true → d.action = d'.action → d = d') →
    rest' = rest ∧ (∀ e' ∈ ended', e'.file = e.file → e'.outcome = e.outcome)
      ∧ ∀ place, e.file.IsFoundAt w.tree place →
        x'.2.tree.content? place = x.2.tree.content? place

section

variable {w w' : World} {log : List (ParsedFile × Deed)} {e : Ended}

/-- Nothing that is not asked of files changes the file. -/
theorem Retells.leavesAlone (h : p.Retells s w log w' e) (hfresh : ∀ u ∈ e.file.units, u.IsFresh)
    {ended : List Ended} {result : Except RunError RunReport} {w₁ : World}
    (hresult : p.conclude s (Crew.outcomes ⟨[], [], ended⟩) w₁ = (result, w')) (he : e ∈ ended)
    (hstop : ∃ d ∈ deedsOf log e.file, d.isStop = true) :
    LeavesAlone w (result, w') e.file (deedsOf log e.file) e.outcome := by
  obtain ⟨r, hcourse, houtcome⟩ := h.course
  obtain ⟨hquiet, o, rfl, hcancelled, hunits, d, hd, hkind, hpath⟩ :=
    Workshop.course_of_isStop hfresh hcourse hstop
  obtain rfl : e.outcome = o := houtcome
  refine ⟨h.kept ?_, hquiet, hunits, ?_⟩
  · exact Stage.foldl_next_of_not_isOnFiles (fun d hd => (hquiet d hd).1) .before
  · rintro report rfl
    obtain ⟨hreport, htells⟩ := tells_of_mem_ended hresult he
    exact ⟨hkind ▸ htells d hd hpath, hreport hcancelled⟩

/-- What has come through the last look is completed as it would be in any other run. -/
theorem Retells.completes (h : p.Retells s w log w' e) (hedits : p.workshop.EditsNothing)
    (hscan : p.scan w = .ok s) (hclear : p.IsClear s w.tree)
    {result : Except RunError RunReport} {enriched : List (CodeUnit × EnrichReport)}
    {rest : List Deed} (hpasses : p.workshop.Passes e.file (deedsOf log e.file) enriched rest) :
    p.Completes w (result, w') enriched rest e := by
  obtain ⟨r, hcourse, houtcome⟩ := h.course
  have hrest := hpasses.course hcourse
  refine ⟨⟨r, hrest, houtcome⟩, Workshop.unstopped_completing hrest, ?_, ?_⟩
  · rw [houtcome]
    cases r with
    | ok o => exact hrest.endsIn (p.workshop.endsIn_complete e.file enriched)
    | error message => rfl
  intro log' ended' x' hruns rest' hpasses' hindex
  have hretells := hruns.retells hedits hscan hclear
  obtain ⟨w₁, hjournal, -⟩ := hruns.exists_concluded hscan
  have hnumbers := hclear.hasRoom.nodup_workList hscan
  obtain ⟨e', he', hfile⟩ : ∃ e' ∈ ended', e'.file = e.file := by
    have hmem := hjournal.perm_ended.mem_iff.2 h.job
    obtain ⟨e', he', hjob⟩ := List.mem_map.1 hmem
    exact ⟨e', he', congrArg Prod.fst hjob⟩
  have hforetold' := (hretells e' he').foretold
  obtain ⟨r', hcourse', houtcome'⟩ := (hretells e' he').course
  have hholds' := (hretells e' he').holds
  rw [hfile] at hforetold' hcourse' houtcome' hholds'
  have hrest' := hpasses'.course hcourse'
  have hmem {ds later : List Deed} (h : p.workshop.Passes e.file ds enriched later) {d : Deed}
      (hd : d ∈ later) : d ∈ ds := by
    obtain ⟨es, -, rfl⟩ := h
    simp [hd]
  -- files answer in both runs as foretold, and the index answers alike
  have halike : AnswerAlike rest rest' := by
    intro d hd d' hd' haction
    rcases Workshop.busy_completing hrest d hd with hfiles | hingest
    · exact (h.foretold d (hmem hpasses hd)).eq (hforetold' d' (hmem hpasses' hd')) hfiles haction
    · exact hindex d hd d' hd' hingest haction
  obtain ⟨rfl, rfl⟩ := hrest.unique hrest' halike
  refine ⟨rfl, fun e'' he'' hfile'' => ?_, fun place hplace => ?_⟩
  · have hnumber : e''.number = e.number := by
      have hjob := (hretells e'' he'').job
      rw [hfile''] at hjob
      exact congrArg Prod.snd (List.inj_on_of_nodup_map hnumbers hjob h.job rfl)
    obtain ⟨r'', hcourse'', houtcome''⟩ := (hretells e'' he'').course
    rw [hfile''] at hcourse'' houtcome''
    rw [houtcome'', houtcome, hnumber, (hpasses'.course hcourse'').end_unique hrest]
  · rw [hholds' place hplace, h.holds place hplace, hpasses.after_eq, hpasses'.after_eq]

end

/-- Asking a run to stop is all or nothing for each file. If the work on a file looks and finds that
the run is to stop, be it at its beginning or once the units are enriched, the file is left alone.
If it looks twice and finds that it is not, it is completed as in a run that nobody asks to stop. -/
theorem run_stops_between_files (hedits : p.workshop.EditsNothing) {w : World}
    (hscan : p.scan w = .ok s) (hclear : p.IsClear s w.tree) {log : List (ParsedFile × Deed)}
    {ended : List Ended} {x : Except RunError RunReport × World}
    (h : p.RunsThrough w log ended x) {f : ParsedFile} (hf : f ∈ s.files) (hunits : f.units ≠ []) :
    ∃ e ∈ ended, e.file = f
      ∧ ((∃ d ∈ deedsOf log f, d.isStop = true) → LeavesAlone w x f (deedsOf log f) e.outcome)
      ∧ ((deedsOf log f).countP (·.isPass) = 2 → ∃ enriched rest,
        p.workshop.Passes f (deedsOf log f) enriched rest ∧ p.Completes w x enriched rest e) := by
  obtain ⟨number, hjob⟩ := exists_mem_workList hf hunits
  obtain ⟨w₁, hjournal, hx⟩ := h.exists_concluded hscan
  obtain ⟨e, he, hsame⟩ := List.mem_map.1 (hjournal.perm_ended.mem_iff.2 hjob)
  obtain rfl : e.file = f := congrArg Prod.fst hsame
  have hretells := h.retells hedits hscan hclear e he
  refine ⟨e, he, rfl, hretells.leavesAlone (isFresh_of_mem_scan hscan hf) hx.symm he,
    fun hlooks => ?_⟩
  obtain ⟨r, hcourse, -⟩ := hretells.course
  obtain ⟨enriched, rest, hpasses⟩ := Workshop.exists_passes hcourse hlooks
  exact ⟨enriched, rest, hpasses, hretells.completes hedits hscan hclear hpasses⟩

/-! ### Runs that are stopped halfway -/

/-- A project whose service asks for the run to stop when it is called for the second time. -/
def halfwayProject : Project where
  config := { root := "/p", manifest := some "m.json" }
  enricher := ⟨some fun calls _ => ⟨calls == 1, [], .answer ⟨false, "", .half, .model⟩⟩, none⟩
  index := .null

theorem editsNothing_halfwayProject : halfwayProject.workshop.EditsNothing := by
  refine ⟨?_, fun _ h => (by cases h), fun _ h => (by cases h)⟩
  rintro ask hask calls u
  cases hask
  rfl

/-- The world of two sources with a unit each, and of what else is there. -/
def halfwayWorld (others : List (Location × Entry)) : World := halfwayProject.startWorld {
  entries := [(["p"], .directory), (["p", "a.py"], .file 0 (.text strayEndText)),
    (["p", "b.py"], .file 1 (.text "def g():\n  pass\n"))] ++ others
  nextSerial := 2
  workingDirectory := [] }

/-- The work on a file in the run that is not interrupted. -/
def checkDeeds (p : Project) (w : World) (check : Scan → List (ParsedFile × Deed) → Bool) : Bool :=
  match p.scan w with
  | .ok s => check s (p.workshop.journal (workList s) w)
  | .error _ => false

/-- There is a file with units of which the journal tells something. -/
def anyTold (s : Scan) (log : List (ParsedFile × Deed))
    (check : ParsedFile → List Deed → Bool) : Bool :=
  s.files.any fun f => !f.units.isEmpty && check f (deedsOf log f)

theorem exists_of_anyTold {log : List (ParsedFile × Deed)} {check : ParsedFile → List Deed → Bool}
    (h : anyTold s log check = true) :
    ∃ f ∈ s.files, f.units ≠ [] ∧ check f (deedsOf log f) = true := by
  obtain ⟨f, hf, hboth⟩ := List.any_eq_true.1 h
  obtain ⟨hunits, hcheck⟩ := Bool.and_eq_true_iff.1 hboth
  exact ⟨f, hf, by simpa using hunits, hcheck⟩

theorem exists_of_checkDeeds {p : Project} {w : World}
    {check : Scan → List (ParsedFile × Deed) → Bool} (h : p.checkDeeds w check = true)
    (hplaces : 0 < p.config.parallelism) :
    ∃ s log ended, p.scan w = .ok s ∧ p.RunsThrough w log ended (p.run w)
      ∧ check s log = true := by
  obtain ⟨ended, hruns⟩ := p.exists_runsThrough_run w hplaces
  unfold checkDeeds at h
  cases hscan : p.scan w with
  | error e =>
    rw [hscan] at h
    cases h
  | ok s =>
    rw [hscan] at h hruns
    exact ⟨s, _, ended, rfl, hruns, h⟩

theorem run_stops_between_files_halfway : halfwayProject.workshop.EditsNothing
    ∧ ∃ s log ended x, halfwayProject.scan (halfwayWorld []) = .ok s
      ∧ halfwayProject.IsClear s (halfwayWorld []).tree
      ∧ halfwayProject.RunsThrough (halfwayWorld []) log ended x
      ∧ (∃ f ∈ s.files, f.units ≠ [] ∧ (∃ d ∈ deedsOf log f, d.isStop = true)
        ∧ ∃ e ∈ ended, e.file = f ∧ LeavesAlone (halfwayWorld []) x f (deedsOf log f) e.outcome)
      ∧ ∃ f ∈ s.files, f.units ≠ [] ∧ (deedsOf log f).countP (·.isPass) = 2
        ∧ ∃ e ∈ ended, e.file = f ∧ ∃ enriched rest,
          halfwayProject.Completes (halfwayWorld []) x enriched rest e := by
  have hcheck : halfwayProject.checkDeeds (halfwayWorld []) (fun s log =>
      halfwayProject.checkClear s (halfwayWorld []).tree
        && anyTold s log (fun _ ds => ds.any (·.isStop))
        && anyTold s log fun _ ds => ds.countP (·.isPass) == 2) = true := by decide +kernel
  obtain ⟨s, log, ended, hscan, hruns, hboth⟩ := exists_of_checkDeeds hcheck (by decide)
  obtain ⟨⟨hclear, hstops⟩, hpasses⟩ := by simpa only [Bool.and_eq_true] using hboth
  have hclear := isClear_of_checkClear hclear
  obtain ⟨f, hf, hfunits, hstop⟩ := exists_of_anyTold hstops
  obtain ⟨g, hg, hgunits, hlooks⟩ := exists_of_anyTold hpasses
  have hstop := List.any_eq_true.1 hstop
  have hlooks : (deedsOf log g).countP (·.isPass) = 2 := by simpa using hlooks
  have hedits := editsNothing_halfwayProject
  obtain ⟨e, he, hef, hleaves, -⟩ :=
    run_stops_between_files hedits hscan hclear hruns hf hfunits
  obtain ⟨e', he', he'g, -, hcompletes⟩ :=
    run_stops_between_files hedits hscan hclear hruns hg hgunits
  obtain ⟨enriched, rest, -, hcompletes⟩ := hcompletes hlooks
  exact ⟨hedits, s, log, ended, _, hscan, hclear, hruns,
    ⟨f, hf, hfunits, hstop, e, he, hef, hleaves hstop⟩,
    g, hg, hgunits, hlooks, e', he', he'g, enriched, rest, hcompletes⟩

/-- When there is a link to a file where the temporary file of another one is to stand, the file is
changed although its own task finds that the run is asked to stop. -/
theorem run_changes_stopped_file : halfwayProject.workshop.EditsNothing
    ∧ ∃ w s log ended x, halfwayProject.config.check w.tree = .ok ()
      ∧ halfwayProject.scan w = .ok s ∧ halfwayProject.RunsThrough w log ended x
      ∧ ∃ f ∈ s.files, f.units ≠ [] ∧ (∃ d ∈ deedsOf log f, d.isStop = true)
        ∧ f.file.isChanged w.tree x.2.tree = true := by
  have hcheck : halfwayProject.checkDeeds
      (halfwayWorld [(["p", ".a.py.madl.tmp"], .link "b.py")]) (fun s log =>
        anyTold s log fun f ds => ds.any (·.isStop) && f.file.isChanged
          (halfwayWorld [(["p", ".a.py.madl.tmp"], .link "b.py")]).tree
          (halfwayProject.run (halfwayWorld [(["p", ".a.py.madl.tmp"], .link "b.py")])).2.tree)
      = true := by decide +kernel
  obtain ⟨s, log, ended, hscan, hruns, hany⟩ := exists_of_checkDeeds hcheck (by decide)
  obtain ⟨f, hf, hunits, hboth⟩ := exists_of_anyTold hany
  obtain ⟨hstop, hchanged⟩ := Bool.and_eq_true_iff.1 hboth
  exact ⟨editsNothing_halfwayProject, _, s, log, ended, _, by decide, hscan, hruns, f, hf, hunits,
    List.any_eq_true.1 hstop, hchanged⟩

end Project

end Marginalia
