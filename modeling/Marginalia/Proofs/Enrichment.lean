import Marginalia.Proofs.Project.Courses

/-!
What enriching a unit leaves behind. A verdict and an annotation are obtained in the same way: there
is no service, the budget refuses the call, or the service is called and answers or fails. The
source that is reported tells which of these it was, and with it what the unit is left with,
whatever verdict and annotation it had before.
-/

namespace Marginalia

/-! ### What is done to obtain something -/

namespace Deed

/-- The budget grants a call. -/
def grant : Deed := ⟨.spend, .ok true⟩

/-- The budget refuses a call. -/
def refusal : Deed := ⟨.spend, .ok false⟩

/-- A service is called to judge a unit. -/
def judged (u : CodeUnit) (ask : Service Verdict) (result : Except ServiceError Verdict) : Deed :=
  ⟨.judge ask u, .ok result⟩

/-- A service is called to describe a unit. -/
def described (u : CodeUnit) (ask : Service Annotation)
    (result : Except ServiceError Annotation) : Deed :=
  ⟨.describe ask u, .ok result⟩

/-- The entry for a call that failed. -/
def failure? : Deed → Option String
  | ⟨.judge .., .ok (.error e)⟩ => some s!"classify: {e.message}"
  | ⟨.describe .., .ok (.error e)⟩ => some s!"annotate: {e.message}"
  | _ => none

end Deed

open Deed

/-- By these deeds something is obtained, from a service or from a local rule. -/
inductive Obtains {α : Type} (service : Option (Service α))
    (call : Service α → Except ServiceError α → Deed) (label : String) (rule : Source → α) :
    List Deed → Obtained α → Prop
  | unserved (h : service = none) :
    Obtains service call label rule [] ⟨rule .heuristic, .heuristic, []⟩
  | refused {ask : Service α} (h : service = some ask) :
    Obtains service call label rule [refusal] ⟨rule .quotaFallback, .quotaFallback, []⟩
  | answered {ask : Service α} {a : α} (h : service = some ask) :
    Obtains service call label rule [grant, call ask (.ok a)] ⟨a, .model, []⟩
  | failed {ask : Service α} {e : ServiceError} (h : service = some ask) :
    Obtains service call label rule [grant, call ask (.error e)]
      ⟨rule .heuristic, .heuristic, [s!"{label}: {e.message}"]⟩

section

variable {α : Type} {service : Option (Service α)}
  {call : Service α → Except ServiceError α → Deed} {label : String} {rule : Source → α}
  {ds : List Deed} {o : Obtained α}

/-- What is obtained hangs on the answer of the budget and on that of the service. -/
theorem obtains_of_course {ask : Service α → Task (Except ServiceError α)}
    (hask : ∀ s ds r, (ask s).Course ds (.ok r) → ds = [call s r])
    (h : (obtain (service.map ask) label rule).Course ds (.ok o)) :
    Obtains service call label rule ds o := by
  cases service with
  | none =>
    obtain ⟨rfl, ho⟩ := Task.course_pure h
    cases ho
    exact .unserved rfl
  | some s =>
    rcases Task.Course.of_once_bind h with ⟨message, hcrash, -⟩ | ⟨granted, rest, rfl, hrest⟩
    · cases hcrash
    cases granted with
    | false =>
      obtain ⟨rfl, ho⟩ := Task.course_pure hrest
      cases ho
      exact .refused rfl
    | true =>
      rcases Task.Course.of_bind hrest with ⟨message, hcrash, -⟩ | ⟨r, ds₁, ds₂, rfl, hcall, hend⟩
      · cases hcrash
      obtain rfl := hask s ds₁ r hcall
      cases r with
      | ok a =>
        obtain ⟨rfl, ho⟩ := Task.course_pure hend
        cases ho
        exact .answered rfl
      | error e =>
        obtain ⟨rfl, ho⟩ := Task.course_pure hend
        cases ho
        exact .failed rfl

/-- The source tells what the budget and the service have answered, as far as they were asked. The
value is what `keep` makes of the answer of the service or, without one, that of the local rule. -/
structure Tells (service : Option (Service α)) (call : Service α → Except ServiceError α → Deed)
    (keep : α → α) (rule : Source → α) (ds : List Deed) (value : α) (source : Source) : Prop where
  model : source = .model ↔ ∃ ask a, service = some ask ∧ ds = [grant, call ask (.ok a)]
  quotaFallback : source = .quotaFallback ↔ (∃ ask, service = some ask) ∧ ds = [refusal]
  heuristic : source = .heuristic
    ↔ service = none ∧ ds = [] ∨ ∃ ask e, service = some ask ∧ ds = [grant, call ask (.error e)]
  answer : ∀ ask a, ds = [grant, call ask (.ok a)] → value = keep a
  fallback : source ≠ .model → value = rule source

/-- What is obtained, marked with its source, comes from there. -/
theorem Obtains.tells (h : Obtains service call label rule ds o) (mark : α → Source → α)
    (hcall : ∀ ask ask' r r', call ask r = call ask' r' → r = r')
    (hrule : ∀ source, mark (rule source) source = rule source) :
    Tells service call (mark · .model) rule ds (mark o.value o.source) o.source := by
  -- the deeds tell an answer from a failure
  have hok : ∀ ask ask' a e, call ask (.ok a) ≠ call ask' (.error e) := fun ask ask' a e heq => by
    cases hcall ask ask' _ _ heq
  have herror : ∀ ask ask' a e, call ask (.error e) ≠ call ask' (.ok a) :=
    fun ask ask' a e => (hok ask' ask a e).symm
  cases h with
  | unserved h => constructor <;> simp [h, hrule]
  | refused h => constructor <;> simp [h, hrule]
  | @answered ask a h =>
    constructor
    · simpa [h] using ⟨a, rfl⟩
    · simp [h]
    · simp [h, hok]
    · intro ask' a' hds
      cases hcall _ _ _ _ (List.cons.inj (List.cons.inj hds).2).1
      rfl
    · exact fun hmodel => absurd rfl hmodel
  | @failed ask e h =>
    constructor
    · simp [h, herror]
    · simp [h]
    · simpa [h] using ⟨e, rfl⟩
    · intro ask' a hds
      cases hcall _ _ _ _ (List.cons.inj (List.cons.inj hds).2).1
    · exact fun _ => hrule _

/-- A failure is recorded for each call that failed. -/
theorem Obtains.errors_eq (h : Obtains service call label rule ds o)
    (hok : ∀ ask a, (call ask (.ok a)).failure? = none)
    (herror : ∀ ask e, (call ask (.error e)).failure? = some s!"{label}: {e.message}") :
    o.errors = ds.filterMap failure? := by
  have hgrant : grant.failure? = none := rfl
  cases h with
  | unserved => rfl
  | refused => rfl
  | answered =>
    rw [List.filterMap_cons_none hgrant, List.filterMap_cons_none (hok _ _), List.filterMap_nil]
  | failed =>
    rw [List.filterMap_cons_none hgrant, List.filterMap_cons_some (herror _ _), List.filterMap_nil]

end

/-! ### Enriching -/

/-- What a unit is left with, and what is reported, once it has been judged by some deeds and
described by others. -/
structure Enricher.Enriches (e : Enricher) (u : CodeUnit) (judging describing : List Deed)
    (v : CodeUnit) (r : EnrichReport) : Prop where
  /-- Nothing else of the unit changes. -/
  rest : v = { u with verdict := v.verdict, annotation := v.annotation }
  judged : ∃ verdict, v.verdict = some verdict ∧ verdict.source = r.judgedBy
    ∧ Tells e.judge (Deed.judged u) ({ · with source := .model }) (LocalRules.verdict u)
      judging verdict r.judgedBy
  annotation : v.annotation.isSome = v.isReusable
  describedBy : r.describedBy.isSome = v.isReusable
  /-- The unit is described as it has been judged. -/
  described : ∀ annotation ∈ v.annotation, ∀ source ∈ r.describedBy,
    Tells e.describe (Deed.described { u with verdict := v.verdict }) id
      (fun _ => LocalRules.annotation u) describing annotation source
  undescribed : v.annotation = none → describing = []
  errors : r.errors = (judging ++ describing).filterMap failure?

namespace Enricher

variable {e : Enricher} {u : CodeUnit} {ds : List Deed}

theorem obtains_judged {o : Obtained Verdict} (h : (e.obtainVerdict u).Course ds (.ok o)) :
    Obtains e.judge (Deed.judged u) "classify" (LocalRules.verdict u) ds o :=
  obtains_of_course (fun _ _ _ hcall => Task.course_once hcall) h

theorem obtains_described {o : Obtained Annotation}
    (h : (e.obtainAnnotation u).Course ds (.ok o)) :
    Obtains e.describe (Deed.described u) "annotate" (fun _ => LocalRules.annotation u) ds o :=
  obtains_of_course (fun _ _ _ hcall => Task.course_once hcall) h

theorem tells_judged {o : Obtained Verdict} (h : (e.obtainVerdict u).Course ds (.ok o)) :
    Tells e.judge (Deed.judged u) ({ · with source := .model }) (LocalRules.verdict u) ds
      { o.value with source := o.source } o.source := by
  refine (obtains_judged h).tells (fun v source => { v with source }) ?_ fun _ => rfl
  intro ask ask' r r' hdeed
  cases hdeed
  rfl

theorem tells_described {o : Obtained Annotation}
    (h : (e.obtainAnnotation u).Course ds (.ok o)) :
    Tells e.describe (Deed.described u) id (fun _ => LocalRules.annotation u) ds o.value
      o.source := by
  refine (obtains_described h).tells (fun a _ => a) ?_ fun _ => rfl
  intro ask ask' r r' hdeed
  cases hdeed
  rfl

theorem enriches_of_course {v : CodeUnit} {r : EnrichReport}
    (h : (e.enrich u).Course ds (.ok (v, r))) :
    ∃ judging describing, ds = judging ++ describing ∧ e.Enriches u judging describing v r := by
  rcases Task.Course.of_bind h with ⟨message, hcrash, -⟩ | ⟨o, judging, rest, rfl, hjudging, hrest⟩
  · cases hcrash
  have herrors := (obtains_judged hjudging).errors_eq (fun _ _ => rfl) fun _ _ => rfl
  have hjudged := tells_judged hjudging
  dsimp only at hrest
  split at hrest
  · next hreusable =>
    rcases Task.Course.of_bind hrest with
      ⟨message, hcrash, -⟩ | ⟨a, describing, later, rfl, hdescribing, hend⟩
    · cases hcrash
    obtain ⟨rfl, hvr⟩ := Task.course_pure hend
    cases hvr
    have herrors' := (obtains_described hdescribing).errors_eq (fun _ _ => rfl) fun _ _ => rfl
    refine ⟨judging, describing, by rw [List.append_nil], ?_⟩
    constructor
    · rfl
    · exact ⟨_, rfl, rfl, hjudged⟩
    · exact hreusable.symm
    · exact hreusable.symm
    · rintro annotation hannotation source hsource
      cases hannotation
      cases hsource
      exact tells_described hdescribing
    · exact fun hnone => absurd hnone (Option.some_ne_none _)
    · rw [List.filterMap_append, ← herrors, ← herrors']
  · next hreusable =>
    obtain ⟨rfl, hvr⟩ := Task.course_pure hrest
    cases hvr
    refine ⟨judging, [], rfl, ?_⟩
    have hfalse : o.value.reusable = false := Bool.eq_false_iff.2 hreusable
    constructor
    · rfl
    · exact ⟨_, rfl, rfl, hjudged⟩
    · exact hfalse.symm
    · exact hfalse.symm
    · exact fun annotation hannotation => absurd hannotation (Option.not_mem_none _)
    · exact fun _ => rfl
    · rw [List.append_nil, herrors]

/-- Only a service can crash while a unit is enriched. -/
theorem exists_crashed_call {message : String} (h : (e.enrich u).Course ds (.error message)) :
    ∃ d ∈ ds, d.isCall = true ∧ d.result = .error message := by
  have honly : (e.enrich u).Only fun a => a = .spend ∨ a.isCall = true :=
    e.only_enrich (fun _ _ => ⟨.inl rfl, fun _ => .inr rfl⟩)
      (fun _ _ => ⟨.inl rfl, fun _ => .inr rfl⟩) u
  obtain ⟨a, w, hd, hcrash⟩ := h.exists_crash
  refine ⟨_, hd, ?_, rfl⟩
  rcases h.only honly _ hd with rfl | hcall
  · cases hcrash
  · exact hcall

/-- One after the other the deeds fit what is left of the budget. -/
inductive FitAll : List Deed → Budget → Budget → Prop
  | nil {q : Budget} : FitAll [] q q
  | cons {d : Deed} {ds : List Deed} {q q' q'' : Budget} (first : d.Fits q q')
      (rest : FitAll ds q' q'') : FitAll (d :: ds) q q''

/-- What a task does without a break fits the budget that it finds. -/
theorem fitAll_deeds {α : Type} (t : Task α) (w : World) :
    FitAll (t.deeds w) w.budget (t.run w).2.budget := by
  induction t generalizing w with
  | done a => exact .nil
  | act a next ih =>
    rw [Task.deeds, Task.run]
    rcases hperform : a.perform w with ⟨message | answer, w'⟩
    · exact .cons (Action.fits_perform hperform) .nil
    · exact .cons (Action.fits_perform hperform) (ih answer w')

/-- How enriching a unit ends by some deeds. -/
def Settles (e : Enricher) (u : CodeUnit) (ds : List Deed) :
    Except String (CodeUnit × EnrichReport) → Prop
  | .ok (v, r) => ∃ judging describing,
    ds = judging ++ describing ∧ e.Enriches u judging describing v r
  | .error message => ∃ d ∈ ds, d.isCall = true ∧ d.result = .error message

/-- Whatever the budget and the services answer, enriching a unit ends with a verdict, and with an
annotation if the unit can be reused, both from where they are said to come from. Without a break,
a call is granted as long as the budget lasts. -/
theorem enrich_settles (e : Enricher) (u : CodeUnit) :
    (∀ ds result, (e.enrich u).Course ds result → e.Settles u ds result)
      ∧ ∀ w, (e.enrich u).Course ((e.enrich u).deeds w) ((e.enrich u).run w).1
        ∧ FitAll ((e.enrich u).deeds w) w.budget ((e.enrich u).run w).2.budget := by
  refine ⟨?_, fun w => ⟨(e.enrich u).course_deeds w, fitAll_deeds (e.enrich u) w⟩⟩
  rintro ds (message | ⟨v, r⟩) h
  · exact exists_crashed_call h
  · exact enriches_of_course h

/-- A unit with a verdict and an annotation of an earlier run. -/
def staleUnit : CodeUnit where
  id := .compose "a.py" none "add" 1
  file := "a.py"
  language := .python
  scope := none
  name := "add"
  signature := "add(a)"
  range := { start := 0, stop := 2 }
  body := "def add(a):\n  return a\n"
  callsOut := []
  callsIn := []
  verdict := some ⟨false, "has effects", .half, .model⟩
  annotation := some ⟨"old", "", "", "", [], "", ""⟩
  indexId := some "1"

/-- Both services cannot be reached. -/
def cutOff : Enricher :=
  ⟨some fun _ _ => .of (.failure (.http "down")), some fun _ _ => .of (.failure (.http "down"))⟩

/-- The call for a verdict uses up the budget and fails, and the call for an annotation is
refused. -/
theorem enrich_settles_cutOff :
    let t := cutOff.enrich staleUnit
    let w := World.start (.empty []) (some 1)
    t.Course (t.deeds w) (t.run w).1 ∧ cutOff.Settles staleUnit (t.deeds w) (t.run w).1
      ∧ ((t.run w).1.toOption.map (·.2)
        = some ⟨.heuristic, some .quotaFallback, ["classify: HTTP error: down"]⟩) := by
  intro t w
  have hcourse : t.Course (t.deeds w) (t.run w).1 := t.course_deeds w
  exact ⟨hcourse, (enrich_settles cutOff staleUnit).1 _ _ hcourse, by decide +kernel⟩

end Enricher

end Marginalia
