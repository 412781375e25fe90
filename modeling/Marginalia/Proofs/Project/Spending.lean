import Mathlib.Algebra.GroupWithZero.Nat
import Marginalia.Proofs.Project.Records

/-!
How the tasks spend the budget. A task asks a service when the budget has just granted it a call,
and then nothing else comes before the call; so the calls that have been started are the grants, in
whatever order the tasks take turns. No more verdicts are reported as given by a service than calls
have been started, and every unit gets a verdict, from a service or from the local rules.
-/

namespace Marginalia

/-! ### The account of a task -/

/-- What a task has had so far from the budget, from the services and from those who stop runs. -/
structure Account where
  /-- A call has been granted that is still to be answered. -/
  asking : Bool
  /-- How many verdicts services have given. -/
  verdicts : Nat
  /-- It was found that the run is asked to stop. -/
  stopped : Bool

namespace Account

/-- The account of a task that has done nothing. -/
def fresh : Account := ⟨false, 0, false⟩

/-- The account behind a deed. -/
def enter (x : Account) (d : Deed) : Account :=
  ⟨d.isGrant, x.verdicts + d.isVerdict.toNat, x.stopped || d.isStop⟩

/-- The account with some more verdicts. -/
def add (x : Account) (n : Nat) : Account := { x with verdicts := x.verdicts + n }

theorem add_add (x : Account) (m n : Nat) : (x.add m).add n = x.add (m + n) := by
  simp only [add, Nat.add_assoc]

end Account

/-- The action has nothing to do with the account. -/
def Action.isIdle : Action → Bool
  | checkCancel | spend | judge .. | describe .. => false
  | _ => true

variable {α β : Type} {x y : Account}

/-- A deed that is no stop changes what has been granted and how many verdicts there are. -/
theorem Account.enter_eq {d : Deed} {granted : Bool} {n : Nat} (hgrant : d.isGrant = granted)
    (hverdict : d.isVerdict.toNat = n) (hstop : d.isStop = false) :
    x.enter d = { x.add n with asking := granted } := by
  rw [enter, hgrant, hverdict, hstop, Bool.or_false]
  rfl

/-- The answer to a call uses its grant up. -/
theorem Account.enter_answer {d : Deed} {n : Nat} (hx : x.asking = false)
    (hgrant : d.isGrant = false) (hverdict : d.isVerdict.toNat = n) (hstop : d.isStop = false) :
    { x with asking := true }.enter d = x.add n := by
  rw [enter_eq hgrant hverdict hstop, ← hx]
  rfl

theorem Account.enter_of_isIdle {a : Action} (h : a.isIdle = true) (hx : x.asking = false)
    (result : Except String a.Answer) : x.enter ⟨a, result⟩ = x := by
  have hsame : { x.add 0 with asking := false } = x := by
    rw [← hx]
    rfl
  cases a with
  | checkCancel => cases h
  | spend => cases h
  | judge ask u => cases h
  | describe ask u => cases h
  | readFile path => exact (enter_eq rfl rfl rfl).trans hsame
  | writeFile path text => exact (enter_eq rfl rfl rfl).trans hsame
  | moveFile source target => exact (enter_eq rfl rfl rfl).trans hsame
  | removeFile path => exact (enter_eq rfl rfl rfl).trans hsame
  | ingest i u => exact (enter_eq rfl rfl rfl).trans hsame

theorem Action.isCall_of_isIdle {a : Action} (h : a.isIdle = true) : a.isCall = false := by
  cases a <;> first | rfl | cases h

namespace Task

/-- The task has turned to a service, whose answer comes next. -/
def isAsking : Task α → Bool
  | done _ => false
  | act a _ => a.isCall

/-- The task makes a call when its account has a grant, and only then; it makes no other use of the
grant, and what it ends in fits its account. -/
def Pays (ends : Account → α → Prop) : Account → Task α → Prop
  | x, done a => x.asking = false ∧ ends x a
  | x, act a next => a.isCall = x.asking
      ∧ ∀ answer, (next answer).Pays ends (x.enter ⟨a, .ok answer⟩)

variable {ends : Account → α → Prop} {ends' : Account → β → Prop}

theorem Pays.isAsking {t : Task α} (h : t.Pays ends x) : t.isAsking = x.asking := by
  cases t with
  | done a => exact h.1.symm
  | act a next => exact h.1

theorem pays_pure {a : α} (hx : x.asking = false) (h : ends x a) :
    (pure a : Task α).Pays ends x := ⟨hx, h⟩

/-- A task in two parts pays as the first part does, and then as the second one does. -/
theorem Pays.bind {t : Task α} {k : α → Task β} (h : t.Pays ends x)
    (hk : ∀ y a, y.asking = false → ends y a → (k a).Pays ends' y) :
    (t >>= k).Pays ends' x := by
  induction t generalizing x with
  | done a => exact hk x a h.1 h.2
  | act a next ih => exact ⟨h.1, fun answer => ih answer (h.2 answer)⟩

theorem Pays.imp {ends' : Account → α → Prop} {t : Task α} (h : t.Pays ends x)
    (himp : ∀ y a, ends y a → ends' y a) : t.Pays ends' x := by
  induction t generalizing x with
  | done a => exact ⟨h.1, himp x a h.2⟩
  | act a next ih => exact ⟨h.1, fun answer => ih answer (h.2 answer)⟩

/-! ### Tasks that leave the account alone -/

/-- No action of the task has to do with its account. -/
abbrev Idle (t : Task α) : Prop := t.Only fun a => a.isIdle = true

theorem Idle.pays {t : Task α} (h : t.Idle) (hx : x.asking = false) :
    t.Pays (fun y _ => y = x) x := by
  induction t with
  | done a => exact ⟨hx, rfl⟩
  | act a next ih =>
    refine ⟨(Action.isCall_of_isIdle h.1).trans hx.symm, ?_⟩
    intro answer
    rw [Account.enter_of_isIdle h.1 hx]
    exact ih answer (h.2 answer)

end Task

theorem Action.isIdle_of_isOnFiles (a : Action) (h : a.isOnFiles = true) : a.isIdle = true := by
  cases a <;> first | rfl | cases h

/-! ### The work on a file -/

/-- What is obtained counts as coming from a service when a service has answered. -/
theorem pays_obtain {call : Option (Task (Except ServiceError α))} {label : String}
    {rule : Source → α} {n : Nat} (hx : x.asking = false)
    (hcall : ∀ t ∈ call, t.Pays (fun y r => y = x.add (if r.isOk then n else 0))
      { x with asking := true }) :
    (obtain call label rule).Pays
      (fun y v => y = x.add (if v.source.isFallback then 0 else n)) x := by
  cases call with
  | none => exact ⟨hx, rfl⟩
  | some call =>
    refine ⟨hx.symm, fun granted => ?_⟩
    have hentered : x.enter ⟨.spend, .ok granted⟩ = { x with asking := granted } :=
      Account.enter_eq rfl rfl rfl
    rw [hentered]
    cases granted with
    | false => exact ⟨rfl, by rw [← hx]; rfl⟩
    | true =>
      refine (hcall call rfl).bind fun y answer hy hadd => ?_
      subst hadd
      rcases answer with e | a
      · exact ⟨hy, rfl⟩
      · exact ⟨hy, rfl⟩

namespace Enricher

theorem pays_obtainVerdict (e : Enricher) (u : CodeUnit) (hx : x.asking = false) :
    (e.obtainVerdict u).Pays (fun y v => y = x.add (if v.source.isFallback then 0 else 1)) x := by
  refine pays_obtain hx fun t ht => ?_
  obtain ⟨ask, -, rfl⟩ := Option.map_eq_some_iff.1 ht
  refine ⟨rfl, fun answer => ⟨rfl, ?_⟩⟩
  rcases answer with e | v
  · exact Account.enter_answer hx rfl rfl rfl
  · exact Account.enter_answer hx rfl rfl rfl

theorem pays_obtainAnnotation (e : Enricher) (u : CodeUnit) (hx : x.asking = false) :
    (e.obtainAnnotation u).Pays (fun y _ => y = x) x := by
  have hpays : (e.obtainAnnotation u).Pays
      (fun y a => y = x.add (if a.source.isFallback then 0 else 0)) x := by
    refine pays_obtain hx fun t ht => ?_
    obtain ⟨ask, -, rfl⟩ := Option.map_eq_some_iff.1 ht
    refine ⟨rfl, fun answer => ⟨rfl, ?_⟩⟩
    rcases answer with e | a
    · exact Account.enter_answer hx rfl rfl rfl
    · exact Account.enter_answer hx rfl rfl rfl
  refine hpays.imp fun y a h => ?_
  rw [h, ite_self]
  rfl

/-- A verdict on a unit that is reported as given by a service has been given by one. -/
theorem pays_enrich (e : Enricher) (u : CodeUnit) (hx : x.asking = false) :
    (e.enrich u).Pays (fun y r => y = x.add (if r.2.judgedBy.isFallback then 0 else 1)) x := by
  refine (e.pays_obtainVerdict u hx).bind fun y v hy hadd => ?_
  dsimp only
  split
  · refine (e.pays_obtainAnnotation _ hy).bind fun z a hz hsame => ?_
    exact Task.pays_pure hz (hsame.trans hadd)
  · exact Task.pays_pure hy hadd

theorem pays_mapM_enrich (e : Enricher) (us : List CodeUnit) (hx : x.asking = false) :
    (us.mapM e.enrich).Pays (fun y rs => rs.length = us.length
      ∧ y = x.add (rs.countP fun r => !r.2.judgedBy.isFallback)) x := by
  induction us generalizing x with
  | nil =>
    rw [List.mapM_nil]
    exact Task.pays_pure hx ⟨rfl, rfl⟩
  | cons u us ih =>
    rw [List.mapM_cons]
    refine (e.pays_enrich u hx).bind fun y r hy hfirst => ?_
    refine (ih hy).bind fun z rs hz hrest => ?_
    obtain ⟨hlength, hadd⟩ := hrest
    refine Task.pays_pure hz ⟨by rw [List.length_cons, hlength, List.length_cons], ?_⟩
    rw [hadd, hfirst, Account.add_add, List.countP_cons, Nat.add_comm]
    cases r.2.judgedBy.isFallback <;> rfl

end Enricher

/-- The verdicts that a service is said to have given. -/
def FileOutcome.modelVerdicts (o : FileOutcome) : Nat := o.reports.countP (!·.judgedBy.isFallback)

/-- What became of a file has the verdicts of its account, one for each unit unless it was found
that the run is asked to stop. -/
structure FileOutcome.IsPaid (o : FileOutcome) (f : ParsedFile) (x : Account) : Prop where
  verdicts : o.modelVerdicts = x.verdicts
  judged : x.stopped = false → o.reports.length = f.units.length

theorem FileOutcome.isPaid_of_reports {o : FileOutcome} {f : ParsedFile}
    {enriched : List (CodeUnit × EnrichReport)} (hreports : o.reports = enriched.map (·.2))
    (hlength : enriched.length = f.units.length)
    (hverdicts : x.verdicts = enriched.countP fun r => !r.2.judgedBy.isFallback) :
    o.IsPaid f x := by
  refine ⟨?_, fun _ => ?_⟩
  · rw [modelVerdicts, hreports, List.countP_map, hverdicts]
    rfl
  · rw [hreports, List.length_map, hlength]

theorem Workshop.pays_work (s : Workshop) (f : ParsedFile) :
    (s.work f).Pays (fun y o => o.IsPaid f y) .fresh := by
  refine ⟨rfl, fun stopped => ?_⟩
  have hentered : Account.fresh.enter ⟨.checkCancel, .ok stopped⟩ = ⟨false, 0, stopped⟩ := by
    cases stopped <;> rfl
  rw [hentered]
  cases stopped with
  | true => exact Task.pays_pure rfl ⟨rfl, fun h => by cases h⟩
  | false =>
  refine (s.enricher.pays_mapM_enrich f.units rfl).bind fun y enriched hy henriched => ?_
  obtain ⟨hlength, hadd⟩ := henriched
  have hverdicts : y.verdicts = enriched.countP fun r => !r.2.judgedBy.isFallback := by
    rw [hadd]
    exact Nat.zero_add _
  refine ⟨hy.symm, fun stopped => ?_⟩
  have hverdicts' : (y.enter ⟨.checkCancel, .ok stopped⟩).verdicts
      = enriched.countP fun r => !r.2.judgedBy.isFallback := hverdicts
  cases stopped with
  | true => exact Task.pays_pure rfl (FileOutcome.isPaid_of_reports rfl hlength hverdicts')
  | false =>
  -- what is left to do has to do with files and the index alone
  have hrenew (r : Renewal) : (Task.renew r).Idle := Task.only_renew Action.isIdle_of_isOnFiles r
  refine ((hrenew _).pays rfl).bind fun z renewed hz hsame => ?_
  subst hsame
  have hoffers (relative : String) (us : List CodeUnit) : (us.mapM (s.offer relative)).Idle :=
    Task.only_mapM us (s.only_offer (fun _ => rfl) relative)
  refine ((hoffers _ _).pays hz).bind fun z' offered hz' hsame => ?_
  subst hsame
  exact Task.pays_pure hz' (FileOutcome.isPaid_of_reports rfl hlength hverdicts')

/-! ### All tasks -/

/-- A call that brought a verdict was made. -/
theorem Deed.isCall_of_isVerdict {d : Deed} (h : d.isVerdict = true) : d.isCall = true := by
  unfold isVerdict at h
  split at h
  · rfl
  · cases h

/-- What has broken off the work on a file is not undone by what is done later. -/
theorem exists_isBreak_append {deeds : List Deed} (h : ∃ d ∈ deeds, d.isBreak = true)
    (later : List Deed) : ∃ d ∈ deeds ++ later, d.isBreak = true := by
  obtain ⟨d, hd, hbreak⟩ := h
  exact ⟨d, List.mem_append_left _ hd, hbreak⟩

namespace Crew

/-- How many calls of the services that judge and describe have been started: those that have been
answered or have crashed, and those of the tasks that wait for an answer. -/
def callsStarted (c : Crew) (deeds : List Deed) : Nat :=
  deeds.countP (·.isCall) + c.underway.countP (·.rest.isAsking)

/-- The accounts of the tasks under way, and what became of the other files, add up to what has been
done. -/
structure Tally (deeds : List Deed) (accounts : List (Underway × Account)) (c : Crew) : Prop where
  underway : (accounts.map (·.1)).Perm c.underway
  pays : ∀ x ∈ accounts, x.1.rest.Pays (fun y o => o.IsPaid x.1.file y) x.2
  calls : deeds.countP (·.isGrant) = deeds.countP (·.isCall) + accounts.countP (·.2.asking)
  verdicts : (accounts.map (·.2.verdicts)).sum + (c.ended.map (·.outcome.modelVerdicts)).sum
    ≤ deeds.countP (·.isVerdict)
  stopped : ∀ x ∈ accounts, x.2.stopped = true → ∃ d ∈ deeds, d.isBreak = true
  judged : ∀ e ∈ c.ended, e.outcome.reports.length = e.file.units.length
    ∨ ∃ d ∈ deeds, d.isBreak = true

variable {s : Workshop} {places : Nat} {deeds : List Deed}
  {accounts others : List (Underway × Account)} {c : Crew}

/-- The order of the accounts does not matter. -/
theorem Tally.perm (h : Tally deeds accounts c) (hperm : accounts.Perm others) :
    Tally deeds others c where
  underway := (hperm.symm.map _).trans h.underway
  pays := fun x hx => h.pays x (hperm.mem_iff.2 hx)
  calls := h.calls.trans (by rw [hperm.countP_eq])
  verdicts := by
    rw [← (hperm.map _).sum_nat]
    exact h.verdicts
  stopped := fun x hx => h.stopped x (hperm.mem_iff.2 hx)
  judged := h.judged

/-- The account of a task under way can be put first. -/
theorem Tally.exists_cons {waiting : List (ParsedFile × Nat)} {before after : List Underway}
    {u : Underway} {ended : List Ended}
    (h : Tally deeds accounts ⟨waiting, before ++ u :: after, ended⟩) :
    ∃ x others, Tally deeds ((u, x) :: others) ⟨waiting, before ++ u :: after, ended⟩
      ∧ (others.map (·.1)).Perm (before ++ after) := by
  have hmem : u ∈ accounts.map (·.1) := h.underway.mem_iff.2 (by simp)
  obtain ⟨⟨v, x⟩, hx, rfl⟩ := List.mem_map.1 hmem
  obtain ⟨front, back, rfl⟩ := List.append_of_mem hx
  have hfirst := h.perm List.perm_middle
  refine ⟨x, front ++ back, hfirst, ?_⟩
  exact (hfirst.underway.trans List.perm_middle).cons_inv

section

variable {waiting : List (ParsedFile × Nat)} {before after : List Underway} {f : ParsedFile}
  {number : Nat} {a : Action} {next : a.Answer → Task FileOutcome} {ended : List Ended}

/-- Behind an answer the account of the task that got it is carried on. -/
theorem Tally.act
    (h : Tally deeds ((⟨f, number, .act a next⟩, x) :: others)
      ⟨waiting, before ++ ⟨f, number, .act a next⟩ :: after, ended⟩)
    (hothers : (others.map (·.1)).Perm (before ++ after)) (answer : a.Answer) :
    Tally (deeds ++ [⟨a, .ok answer⟩])
      ((⟨f, number, next answer⟩, x.enter ⟨a, .ok answer⟩) :: others)
      ⟨waiting, before ++ ⟨f, number, next answer⟩ :: after, ended⟩ := by
  obtain ⟨hcall, hnext⟩ := h.pays _ List.mem_cons_self
  generalize hd : (⟨a, .ok answer⟩ : Deed) = d
  have hasking : d.isCall = x.asking := hd ▸ hcall
  have hcalls := h.calls
  have hverdicts := h.verdicts
  simp only [List.countP_cons, List.map_cons, List.sum_cons] at hcalls hverdicts
  refine ⟨?_, ?_, ?_, ?_, ?_, ?_⟩
  · exact (hothers.cons _).trans List.perm_middle.symm
  · intro z hz
    rcases List.mem_cons.1 hz with rfl | hz
    · exact hd ▸ hnext answer
    · exact h.pays z (List.mem_cons_of_mem _ hz)
  · simp only [List.countP_append, List.countP_cons, List.countP_nil, Account.enter, hasking]
    omega
  · simp only [List.countP_append, List.countP_cons, List.countP_nil, List.map_cons, List.sum_cons,
      Account.enter]
    cases d.isVerdict <;> simp <;> omega
  · intro z hz hstop
    rcases List.mem_cons.1 hz with rfl | hz
    · rcases Bool.or_eq_true_iff.1 hstop with hstop | hstop
      · exact exists_isBreak_append (h.stopped _ List.mem_cons_self hstop) _
      · have hbreak : d.isBreak = true := by rw [Deed.isBreak, hstop, Bool.true_or]
        exact ⟨d, List.mem_append_right _ (List.mem_singleton_self d), hbreak⟩
    · exact exists_isBreak_append (h.stopped z (List.mem_cons_of_mem _ hz) hstop) _
  · intro e he
    rcases h.judged e he with hjudged | hbreak
    · exact .inl hjudged
    · exact .inr (exists_isBreak_append hbreak _)

/-- With a crash the account of a task is closed, and nothing of it is reported. -/
theorem Tally.crash
    (h : Tally deeds ((⟨f, number, .act a next⟩, x) :: others)
      ⟨waiting, before ++ ⟨f, number, .act a next⟩ :: after, ended⟩)
    (hothers : (others.map (·.1)).Perm (before ++ after)) (message : String) :
    Tally (deeds ++ [⟨a, .error message⟩]) others
      ⟨waiting, before ++ after, ended ++ [⟨f, number, .crashed number f message⟩]⟩ := by
  obtain ⟨hcall, -⟩ := h.pays _ List.mem_cons_self
  have hasking : (⟨a, .error message⟩ : Deed).isCall = x.asking := hcall
  have hcalls := h.calls
  have hverdicts := h.verdicts
  simp only [List.countP_cons, List.map_cons, List.sum_cons] at hcalls hverdicts
  refine ⟨hothers, fun z hz => h.pays z (List.mem_cons_of_mem _ hz), ?_, ?_, ?_, ?_⟩
  · simp only [List.countP_append, List.countP_cons, List.countP_nil, hasking,
      Deed.isGrant_error, Bool.false_eq_true, if_false]
    omega
  · have hnone : (FileOutcome.crashed number f message).modelVerdicts = 0 := rfl
    simp only [List.countP_append, List.map_append, List.sum_append, List.map_cons, List.map_nil,
      List.sum_cons, List.sum_nil, hnone]
    omega
  · intro z hz hstop
    exact exists_isBreak_append (h.stopped z (List.mem_cons_of_mem _ hz) hstop) _
  · intro e he
    rcases List.mem_append.1 he with he | he
    · rcases h.judged e he with hjudged | hbreak
      · exact .inl hjudged
      · exact .inr (exists_isBreak_append hbreak _)
    · refine .inr ⟨⟨a, .error message⟩, ?_, Deed.isBreak_error a message⟩
      exact List.mem_append_right _ (List.mem_singleton_self _)

/-- At the end of a task its verdicts are reported. -/
theorem Tally.finish {o : FileOutcome}
    (h : Tally deeds ((⟨f, number, .done o⟩, x) :: others)
      ⟨waiting, before ++ ⟨f, number, .done o⟩ :: after, ended⟩)
    (hothers : (others.map (·.1)).Perm (before ++ after)) :
    Tally deeds others ⟨waiting, before ++ after, ended ++ [⟨f, number, o⟩]⟩ := by
  obtain ⟨hasking, hpaid⟩ := h.pays _ List.mem_cons_self
  have hnone : x.asking = false := hasking
  have hverdict : o.modelVerdicts = x.verdicts := hpaid.verdicts
  have hcalls := h.calls
  have hverdicts := h.verdicts
  simp only [List.countP_cons, List.map_cons, List.sum_cons] at hcalls hverdicts
  refine ⟨hothers, fun z hz => h.pays z (List.mem_cons_of_mem _ hz), ?_, ?_, ?_, ?_⟩
  · simpa only [hnone, Bool.false_eq_true, if_false, Nat.add_zero] using hcalls
  · simp only [List.map_append, List.sum_append, List.map_cons, List.map_nil, List.sum_cons,
      List.sum_nil, hverdict]
    omega
  · intro z hz hstop
    exact h.stopped z (List.mem_cons_of_mem _ hz) hstop
  · intro e he
    rcases List.mem_append.1 he with he | he
    · exact h.judged e he
    · rw [List.mem_singleton.1 he]
      cases hstop : x.stopped with
      | false => exact .inl (hpaid.judged hstop)
      | true => exact .inr (h.stopped _ List.mem_cons_self hstop)

end

/-- In a step at most one account is opened, carried on or closed. -/
theorem Move.exists_tally {x y : Crew × World} {did : List Deed} (hmove : Move s places x did y)
    (h : Tally deeds accounts x.1) : ∃ accounts', Tally (deeds ++ did) accounts' y.1 := by
  cases hmove with
  | @begin before after f number underway ended w free =>
    rw [List.append_nil]
    refine ⟨(⟨f, number, s.work f⟩, .fresh) :: accounts, ?_, ?_, ?_, ?_, ?_, h.judged⟩
    · exact (h.underway.cons _).trans (List.perm_append_singleton _ _).symm
    · intro z hz
      rcases List.mem_cons.1 hz with rfl | hz
      · exact s.pays_work f
      · exact h.pays z hz
    · rw [h.calls, List.countP_cons]
      rfl
    · rw [List.map_cons, List.sum_cons]
      exact (Nat.zero_add _).symm ▸ h.verdicts
    · intro z hz hstop
      rcases List.mem_cons.1 hz with rfl | hz
      · cases hstop
      · exact h.stopped z hz hstop
  | act done =>
    obtain ⟨x, others, h, hothers⟩ := h.exists_cons
    exact ⟨_, h.act hothers _⟩
  | crash crashed =>
    obtain ⟨x, others, h, hothers⟩ := h.exists_cons
    exact ⟨_, h.crash hothers _⟩
  | finish =>
    obtain ⟨x, others, h, hothers⟩ := h.exists_cons
    rw [List.append_nil]
    exact ⟨_, h.finish hothers⟩
  | request stop =>
    rw [List.append_nil]
    exact ⟨accounts, h⟩

/-- Whatever has been done, there are accounts that add up to it. -/
theorem History.exists_tally {files : List (ParsedFile × Nat)} {w : World} {y : Crew × World}
    (h : History s places (.start files, w) deeds y) :
    ∃ accounts, Tally deeds accounts y.1 := by
  induction h with
  | start =>
    exact ⟨[], .nil, fun z hz => absurd hz List.not_mem_nil, rfl, Nat.le_refl 0,
      fun z hz => absurd hz List.not_mem_nil, fun e he => absurd he List.not_mem_nil⟩
  | move _ hmove ih =>
    obtain ⟨accounts, htally⟩ := ih
    exact hmove.exists_tally htally

/-- The tasks that are asking a service are those whose accounts have a grant. -/
theorem Tally.countP_isAsking (h : Tally deeds accounts c) :
    c.underway.countP (·.rest.isAsking) = accounts.countP (·.2.asking) := by
  rw [← h.underway.countP_eq, List.countP_map]
  exact List.countP_congr fun z hz => by simp [(h.pays z hz).isAsking]

/-- The calls that have been started are the grants. -/
theorem Tally.callsStarted_eq (h : Tally deeds accounts c) :
    c.callsStarted deeds = deeds.countP (·.isGrant) := by
  rw [callsStarted, h.countP_isAsking, h.calls]

theorem sum_outcomes (c : Crew) (number : FileOutcome → Nat) :
    (c.outcomes.map number).sum = (c.ended.map fun e => number e.outcome).sum := by
  rw [outcomes, List.map_map]
  exact ((sortBy_perm _ _).map _).sum_nat

/-- No more verdicts are reported than services have given. -/
theorem Tally.verdicts_le (h : Tally deeds accounts c) :
    (c.ended.map (·.outcome.modelVerdicts)).sum ≤ c.callsStarted deeds := by
  have hverdicts := h.verdicts
  have hcalls : deeds.countP (·.isVerdict) ≤ deeds.countP (·.isCall) :=
    List.countP_mono_left fun d _ => Deed.isCall_of_isVerdict
  unfold callsStarted
  omega

end Crew

/-! ### The run -/

/-- A unit with what has been found out about it, a verdict included. -/
def CodeUnit.IsJudged (v u : CodeUnit) : Prop := v.verdict.isSome = true ∧ u.HasFindings v

/-- When there is a report on each unit, each has a verdict. -/
theorem FileOutcome.Accounts.isJudged {o : FileOutcome} {f : ParsedFile} (h : o.Accounts f)
    (hlength : o.reports.length = f.units.length) :
    List.Forall₂ CodeUnit.IsJudged o.units f.units := by
  refine (List.forall₂_and_left _ _).2 ⟨?_, h.units.flip⟩
  have hcount : o.units.countP (·.verdict.isSome) = o.units.length := by
    rw [← h.units.length_eq, ← hlength, h.length_reports, List.countP_map]
    exact List.countP_congr fun v _ => by simp [ManifestRecord.ofUnit]
  exact List.countP_eq_length.1 hcount

namespace Crew

/-- If no work has been broken off, each unit of each file has a verdict. -/
theorem History.isJudged {s : Workshop} {places : Nat} {deeds : List Deed}
    {files : List (ParsedFile × Nat)} (hfiles : files.Pairwise fun a b => a.2 < b.2)
    (hfresh : ∀ job ∈ files, ∀ u ∈ job.1.units, u.IsFresh) {w w' : World} {ended : List Ended}
    (h : History s places (.start files, w) deeds (⟨[], [], ended⟩, w'))
    (hbreak : ∀ d ∈ deeds, d.isBreak = false) :
    List.Forall₂ CodeUnit.IsJudged ((outcomes ⟨[], [], ended⟩).flatMap (·.units))
      (files.flatMap fun job => job.1.units) := by
  have hsteps := steps_iff_history.2 ⟨deeds, h⟩
  obtain ⟨accounts, htally⟩ := h.exists_tally
  have haccounts := (Crew.endsIn (P := fun f o => o.Accounts f)
    (fun job hjob => endsIn_work s (hfresh job hjob))
    (fun job hjob message => FileOutcome.accounts_of_units (hfresh job hjob) rfl rfl rfl)
    hsteps).ended
  have hall := forall₂_of_ended (P := fun f o => List.Forall₂ CodeUnit.IsJudged o.units f.units)
    hfiles hsteps fun e he => ?_
  · exact List.rel_flatMap hall.flip fun o job hjudged => hjudged
  · rcases htally.judged e he with hlength | ⟨d, hd, hbroken⟩
    · exact (haccounts e he).isJudged hlength
    · rw [hbreak d hd] at hbroken
      cases hbroken

end Crew

namespace Project

theorem modelVerdicts_foldl (outcomes : List FileOutcome) (r : RunReport) :
    (outcomes.foldl addOutcome r).modelVerdicts
      = r.modelVerdicts + (outcomes.map (·.modelVerdicts)).sum := by
  induction outcomes generalizing r with
  | nil => rfl
  | cons o outcomes ih =>
    rw [List.foldl_cons, ih, (addOutcome_numbers r o).2.2.2.1, List.map_cons, List.sum_cons,
      Nat.add_assoc]
    rfl

/-- The shared budget is neither exceeded nor wasted. At every moment of every run that starts with
an unused budget, whatever the services answer and however they fail, and in whatever order the
tasks take turns: the calls started to judge or to describe a unit are what has been taken from the
budget, which is within the limit. If a task is refused a call then, just the limit has been taken,
and no call is started any more. When all work has ended, no more verdicts are reported as given by
a service than calls have been taken, and if no work was broken off every unit of the scan has a
verdict. -/
theorem run_keeps_budget (p : Project) {w w' : World} {s : Scan} {c : Crew} {deeds : List Deed}
    (hscan : p.scan w = .ok s) (hunused : w.budget.used = 0)
    (h : Crew.History p.workshop p.config.parallelism (.start (workList s), w) deeds (c, w')) :
    (c.callsStarted deeds = w'.budget.used
      ∧ ∀ limit, w.budget.limit = some limit → w'.budget.used ≤ limit)
    ∧ (∀ d y later z, Crew.Move p.workshop p.config.parallelism (c, w') [d] y →
      d.isRefusal = true → Crew.History p.workshop p.config.parallelism y later z →
      w.budget.limit = some w'.budget.used
        ∧ z.1.callsStarted (deeds ++ d :: later) = c.callsStarted deeds)
    ∧ ∀ ended, c = ⟨[], [], ended⟩ →
      ((∀ d ∈ deeds, d.isBreak = false) →
        List.Forall₂ CodeUnit.IsJudged ((Crew.outcomes c).flatMap (·.units)) s.units)
      ∧ ∀ report, (p.conclude s (Crew.outcomes c) w').1 = .ok report →
        report.modelVerdicts ≤ report.quotaUsed ∧ report.quotaUsed = w'.budget.used := by
  have hbudget := h.budget
  have hkept : w'.budget.IsKept := by
    refine h.isKept fun limit _ => ?_
    rw [hunused]
    exact Nat.zero_le limit
  have hlimit : w'.budget.limit = w.budget.limit := by rw [hbudget]
  obtain ⟨accounts, htally⟩ := h.exists_tally
  have hstarted : c.callsStarted deeds = w'.budget.used := by
    rw [htally.callsStarted_eq, hbudget, hunused, Nat.zero_add]
  refine ⟨⟨hstarted, fun limit hl => hkept limit (hlimit.trans hl)⟩, ?_, ?_⟩
  · intro d y later z hmove hrefusal hlater
    rcases hmove.fits with ⟨hnone, -⟩ | ⟨d', hd, hfits⟩
    · cases hnone
    obtain ⟨rfl, -⟩ := List.cons.inj hd
    have hspent : w'.budget.isSpent = true := hfits.refusal hrefusal
    have hgrant : d.isGrant = false := by
      cases hgranted : d.isGrant with
      | false => rfl
      | true => exact hspent.symm.trans (hfits.grant hgranted)
    have hy : y.2.budget.isSpent = true := by
      rw [hfits.taken, hgrant]
      exact hspent
    obtain ⟨accounts', htally'⟩ := ((h.move hmove).trans hlater).exists_tally
    rw [List.append_assoc] at htally'
    refine ⟨hlimit.symm.trans (hkept.isSpent_iff.1 hspent), ?_⟩
    have hnone : later.countP (·.isGrant) = 0 :=
      List.countP_eq_zero.2 fun e he => by simp [(hlater.isSpent hy).2 e he]
    rw [htally.callsStarted_eq]
    refine htally'.callsStarted_eq.trans ?_
    simp [hgrant, hnone]
  · rintro ended rfl
    refine ⟨fun hbreak => ?_, fun report hreport => ?_⟩
    · rw [← flatMap_workList]
      refine h.isJudged (pairwise_workList s) (fun job hjob => ?_) hbreak
      exact isFresh_of_mem_scan hscan (mem_of_mem_workList hjob).1
    · obtain ⟨-, -, -, hscanned⟩ := scan_eq_ok hscan
      obtain rfl := report_of_conclude hreport
      refine ⟨?_, rfl⟩
      change (List.foldl addOutcome _ _).modelVerdicts ≤ w'.budget.used
      rw [modelVerdicts_foldl, Crew.sum_outcomes, ← hstarted, hscanned]
      exact (Nat.zero_add _).trans_le htally.verdicts_le

/-- The run that is not interrupted comes to a report, and a check of what has been done, of the
budget behind it and of the report holds. -/
def checkSpending (p : Project) (w : World) (check : List Deed → Budget → RunReport → Bool) :
    Bool :=
  match p.scan w with
  | .error _ => false
  | .ok s =>
    let (outcomes, w') := p.workshop.finishAll (workList s) w
    match (p.conclude s outcomes w').1 with
    | .error _ => false
    | .ok report => check (p.workshop.deeds (workList s) w) w'.budget report

theorem exists_of_checkSpending {p : Project} {w : World}
    {check : List Deed → Budget → RunReport → Bool} (h : p.checkSpending w check = true)
    (hplaces : 0 < p.config.parallelism) :
    ∃ s deeds ended w' report, p.scan w = .ok s
      ∧ Crew.History p.workshop p.config.parallelism (.start (workList s), w) deeds
        (⟨[], [], ended⟩, w')
      ∧ (p.conclude s (Crew.outcomes ⟨[], [], ended⟩) w').1 = .ok report
      ∧ check deeds w'.budget report = true := by
  unfold checkSpending at h
  split at h
  · cases h
  rename_i s hscan
  obtain ⟨ended, hhistory, houtcomes⟩ := p.exists_history_finishAll s w hplaces
  dsimp only at h
  rw [← houtcomes] at h
  split at h
  · cases h
  rename_i report hreport
  exact ⟨s, _, ended, _, report, hscan, hhistory, hreport, h⟩

/-- The world of two files with a unit each, and a budget of a single call. -/
def thriftyWorld : World := { unusedWorld with budget := .fresh (some 1) }

theorem run_keeps_budget_thrifty : ∃ s deeds ended w' report,
    unusedProject.scan thriftyWorld = .ok s ∧ thriftyWorld.budget.used = 0
      ∧ Crew.History unusedProject.workshop unusedProject.config.parallelism
        (.start (workList s), thriftyWorld) deeds (⟨[], [], ended⟩, w')
      ∧ (∃ d ∈ deeds, d.isRefusal = true)
      ∧ w'.budget.used = 1 ∧ Crew.callsStarted ⟨[], [], ended⟩ deeds = w'.budget.used
      ∧ List.Forall₂ CodeUnit.IsJudged ((Crew.outcomes ⟨[], [], ended⟩).flatMap (·.units)) s.units
      ∧ (unusedProject.conclude s (Crew.outcomes ⟨[], [], ended⟩) w').1 = .ok report
      ∧ report.modelVerdicts = 1 ∧ report.modelVerdicts ≤ report.quotaUsed := by
  have hspending : unusedProject.checkSpending thriftyWorld (fun deeds q report =>
      deeds.any (·.isRefusal) && deeds.all (!·.isBreak) && q.used == 1
        && report.modelVerdicts == 1) = true := by decide +kernel
  obtain ⟨s, deeds, ended, w', report, hscan, hhistory, hreport, hcheck⟩ :=
    exists_of_checkSpending hspending (by decide)
  simp only [Bool.and_eq_true, List.any_eq_true, List.all_eq_true, beq_iff_eq,
    Bool.not_eq_true'] at hcheck
  obtain ⟨⟨⟨hrefusal, hbreak⟩, hused⟩, hverdicts⟩ := hcheck
  obtain ⟨⟨hstarted, -⟩, -, hend⟩ := run_keeps_budget unusedProject hscan rfl hhistory
  obtain ⟨hjudged, hreported⟩ := hend ended rfl
  exact ⟨s, deeds, ended, w', report, hscan, rfl, hhistory, hrefusal, hused, hstarted,
    hjudged hbreak, hreport, hverdicts, (hreported report hreport).1⟩

end Project

end Marginalia
