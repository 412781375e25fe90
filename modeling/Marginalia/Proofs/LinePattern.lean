import Mathlib.Data.List.TakeWhile
import Marginalia.LinePattern

/-!
A tail behind a line. A pattern that has to take one more character of the line before it can
succeed, a character that is not in the tail, matches the line with the tail just as it matches the
line alone: the same choices fail, and the groups cover the same text. The relation is kept by every
pattern, so it only has to be shown for what a pattern ends with.
-/

namespace Marginalia

namespace Pattern

/-- The fewest characters that a match takes; no more than the proofs need to know. -/
def least : Pattern → Nat
  | one _ => 1
  | text s => s.length
  | seq a b => a.least + b.least
  | either a b => min a.least b.least
  | group _ body => body.least
  | empty | span _ | whole _ | frugal _ | many _ | atEnd => 0

/-- Whatever is repeated takes a character at least. -/
def isRegular : Pattern → Bool
  | many body => decide (0 < body.least) && body.isRegular
  | seq a b | either a b => a.isRegular && b.isRegular
  | group _ body => body.isRegular
  | empty | one _ | text _ | span _ | whole _ | frugal _ | atEnd => true

end Pattern

/-- The captures of a match in a line that has a tail. -/
def Captures.extend (w : List Char) (found : Captures) : Captures :=
  found.map fun (i, before, after) => (i, before ++ w, after ++ w)

theorem Captures.get?_extend (w : List Char) (found : Captures) (i : Nat) :
    (found.extend w).get? i = found.get? i := by
  induction found with
  | nil => rfl
  | cons entry found ih =>
    obtain ⟨j, before, after⟩ := entry
    rw [get?, get?] at ih
    simp only [extend, List.map_cons, get?, List.lookup_cons]
    cases hj : i == j with
    | false => exact ih
    | true =>
      simp only [Option.map_some, List.length_append, Nat.add_sub_add_right]
      rw [List.take_append_of_le_length (Nat.sub_le _ _)]

theorem Captures.get_extend (w : List Char) (found : Captures) (i : Nat) :
    (found.extend w).get i = found.get i := by
  rw [get, get, get?_extend]

/-- Nothing succeeds within the tail. -/
def Stuck (w : List Char) (next : Continuation) : Prop :=
  ∀ s found, s <:+ w → next s found = none

/-- What remains to be matched does not see the tail behind a line of at most `k` characters. -/
structure Extends (w : List Char) (k : Nat) (next next' : Continuation) : Prop where
  agree : ∀ s found, s.length ≤ k →
    next' (s ++ w) (found.extend w) = (next s found).map (·.extend w)
  stuck : Stuck w next'

theorem Extends.nil_eq_none {w : List Char} {k : Nat} {next next' : Continuation}
    (h : Extends w k next next') (found : Captures) : next [] found = none := by
  have hnil := h.agree [] found (Nat.zero_le k)
  rw [List.nil_append, h.stuck w _ (List.suffix_refl w)] at hnil
  simpa using hnil.symm

namespace Pattern

variable {w : List Char}

/-! ### Within the tail -/

theorem suffix_of_mem_runRests {p : Char → Bool} {s rest : List Char} {done : List (List Char)}
    (h : rest ∈ runRests p done s) : rest ∈ done ∨ rest <:+ s := by
  induction s generalizing done with
  | nil => simpa [runRests, or_comm] using h
  | cons c s ih =>
    rw [runRests] at h
    split at h
    · rcases ih h with h | h
      · rcases List.mem_cons.1 h with rfl | h
        · exact .inr (List.suffix_refl _)
        · exact .inl h
      · exact .inr (h.trans (List.suffix_cons c s))
    · rcases List.mem_cons.1 h with rfl | h
      · exact .inr (List.suffix_refl _)
      · exact .inl h

theorem stuck_repeatStep {step : List Char → Captures → Continuation → Option Captures}
    {next : Continuation} (hstep : ∀ {next}, Stuck w next → Stuck w (step · · next))
    (h : Stuck w next) (fuel : Nat) : Stuck w (repeatStep step fuel · · next) := by
  induction fuel with
  | zero => exact h
  | succ fuel ih =>
    intro s found hs
    have hnone : step s found (fun s' found' => repeatStep step fuel s' found' next) = none :=
      hstep ih s found hs
    simp only [repeatStep, hnone]
    exact h s found hs

/-- A pattern does not leave the tail once it is in it. -/
theorem stuck_run (p : Pattern) {next : Continuation} (h : Stuck w next) :
    Stuck w (run p · · next) := by
  induction p generalizing next with
  | empty => exact h
  | one p =>
    intro s found hs
    cases s with
    | nil => rfl
    | cons c rest => simp [run, h rest found ((List.suffix_cons c rest).trans hs)]
  | text t =>
    intro s found hs
    simp only [run]
    split
    · next rest hrest =>
      rw [Text.dropFront?_eq_some_iff] at hrest
      exact h rest found ((hrest ▸ List.suffix_append t rest).trans hs)
    · rfl
  | seq a b iha ihb => exact iha (ihb h)
  | either a b iha ihb =>
    intro s found hs
    have hnone : run a s found next = none := iha h s found hs
    simp only [run, hnone]
    exact ihb h s found hs
  | span p | frugal p =>
    intro s found hs
    simp only [run, List.findSome?_eq_none_iff, List.mem_reverse]
    intro rest hrest
    have hrests := suffix_of_mem_runRests hrest
    exact h rest found ((hrests.resolve_left (by simp)).trans hs)
  | whole p =>
    intro s found hs
    exact h _ found ((List.dropWhile_suffix p).trans hs)
  | many body ih =>
    intro s found hs
    exact stuck_repeatStep ih h s.length s found hs
  | group i body ih =>
    intro s found hs
    exact ih (fun s' found' hs' => h s' _ hs') s found hs
  | atEnd =>
    intro s found hs
    simp only [run]
    split
    · exact h s found hs
    · rfl

/-! ### In front of the tail -/

theorem run_either_eq_map {a b : Pattern} {s s' : List Char} {found found' : Captures}
    {next next' : Continuation} {g : Captures → Captures}
    (ha : run a s' found' next' = (run a s found next).map g)
    (hb : run b s' found' next' = (run b s found next).map g) :
    run (either a b) s' found' next' = (run (either a b) s found next).map g := by
  simp only [run, ha, hb]
  cases run a s found next <;> rfl

theorem runRests_tail (p : Char → Bool) (w : List Char) (done : List (List Char)) :
    ∃ inner, (∀ rest ∈ inner, rest <:+ w) ∧ runRests p done w = inner ++ w :: done := by
  induction w generalizing done with
  | nil => exact ⟨[], by simp, rfl⟩
  | cons c w ih =>
    rw [runRests]
    split
    · obtain ⟨inner, hinner, hruns⟩ := ih ((c :: w) :: done)
      refine ⟨inner ++ [w], fun rest hrest => ?_, by simp [hruns]⟩
      rcases List.mem_append.1 hrest with hrest | hrest
      · exact (hinner rest hrest).trans (List.suffix_cons c w)
      · exact List.mem_singleton.1 hrest ▸ List.suffix_cons c w
    · exact ⟨[], by simp, rfl⟩

/-- The runs in a line with a tail are those of the line, behind runs that reach into the tail. -/
theorem runRests_append (p : Char → Bool) (w s : List Char) (done : List (List Char)) :
    ∃ inner, (∀ rest ∈ inner, rest <:+ w)
      ∧ runRests p (done.map (· ++ w)) (s ++ w) = inner ++ (runRests p done s).map (· ++ w) := by
  induction s generalizing done with
  | nil => simpa [runRests] using runRests_tail p w (done.map (· ++ w))
  | cons c s ih =>
    rw [List.cons_append, runRests, runRests]
    split
    · simpa using ih ((c :: s) :: done)
    · exact ⟨[], by simp, by simp⟩

/-- A choice among places in the line the same in the line with its tail. -/
theorem findSome?_of_extends {k : Nat} {next next' : Continuation} (h : Extends w k next next')
    (found : Captures) {rests : List (List Char)} (hrests : ∀ rest ∈ rests, rest.length ≤ k) :
    (rests.map (· ++ w)).findSome? (next' · (found.extend w))
      = (rests.findSome? (next · found)).map (·.extend w) := by
  induction rests with
  | nil => rfl
  | cons rest rests ih =>
    have ih := ih fun r hr => hrests r (List.mem_cons_of_mem _ hr)
    rw [List.map_cons, List.findSome?_cons, List.findSome?_cons, ih,
      h.agree rest found (hrests rest (by simp))]
    cases next rest found <;> rfl

theorem length_le_of_mem_runRests {p : Char → Bool} {s rest : List Char}
    (h : rest ∈ runRests p [] s) : rest.length ≤ s.length :=
  ((suffix_of_mem_runRests h).resolve_left (by simp)).length_le

/-- A text stands in a line with a tail where it stands in the line, or reaches into the tail. -/
theorem run_text_append {t : List Char} {k : Nat} {next next' : Continuation}
    (h : Extends w k next next') {s : List Char} (found : Captures)
    (hs : s.length ≤ k + t.length) :
    run (.text t) (s ++ w) (found.extend w) next'
      = (run (.text t) s found next).map (·.extend w) := by
  simp only [run]
  cases hs' : Text.dropFront? t s with
  | some rest =>
    rw [Text.dropFront?_eq_some_iff] at hs'
    subst hs'
    have hfront : Text.dropFront? t (t ++ rest ++ w) = some (rest ++ w) :=
      Text.dropFront?_eq_some_iff.2 (List.append_assoc t rest w)
    rw [hfront]
    exact h.agree rest found (by rw [List.length_append] at hs; omega)
  | none =>
    cases hw : Text.dropFront? t (s ++ w) with
    | none => rfl
    | some rest =>
      rw [Text.dropFront?_eq_some_iff] at hw
      rcases List.append_eq_append_iff.1 hw with ⟨more, -, hmore⟩ | ⟨more, hmore, -⟩
      · exact h.stuck rest _ (hmore ▸ List.suffix_append more rest)
      · rw [Text.dropFront?_eq_some_iff.2 hmore] at hs'
        exact absurd hs' (by simp)

/-- A run that is chosen without the tail is chosen with it, whichever way the runs are tried. -/
theorem findSome?_runRests_append (p : Char → Bool) {k : Nat} {next next' : Continuation}
    (h : Extends w k next next') {s : List Char} (found : Captures) (hs : s.length ≤ k) :
    (runRests p [] (s ++ w)).findSome? (next' · (found.extend w))
        = ((runRests p [] s).findSome? (next · found)).map (·.extend w)
      ∧ (runRests p [] (s ++ w)).reverse.findSome? (next' · (found.extend w))
        = ((runRests p [] s).reverse.findSome? (next · found)).map (·.extend w) := by
  obtain ⟨inner, hinner, hruns⟩ := runRests_append p w s []
  have hnone : inner.findSome? (next' · (found.extend w)) = none :=
    List.findSome?_eq_none_iff.2 fun rest hrest => h.stuck rest _ (hinner rest hrest)
  have hnone' : inner.reverse.findSome? (next' · (found.extend w)) = none :=
    List.findSome?_eq_none_iff.2 fun rest hrest =>
      h.stuck rest _ (hinner rest (List.mem_reverse.1 hrest))
  have hle : ∀ rest ∈ runRests p [] s, rest.length ≤ k := fun rest hrest =>
    (length_le_of_mem_runRests hrest).trans hs
  rw [List.map_nil] at hruns
  rw [hruns, List.reverse_append, List.findSome?_append, List.findSome?_append, hnone, hnone',
    Option.none_or, Option.or_none, ← List.map_reverse]
  exact ⟨findSome?_of_extends h found hle,
    findSome?_of_extends h found fun rest hrest => hle rest (List.mem_reverse.1 hrest)⟩

theorem extends_repeatStep {body : Pattern} (hbody : 0 < body.least)
    (hrun : ∀ {k} {next next' : Continuation}, Extends w k next next' →
      Extends w (k + body.least) (run body · · next) (run body · · next')) {k : Nat}
    {next next' : Continuation} (h : Extends w k next next') (n m : Nat) (s : List Char)
    (found : Captures) (hk : s.length ≤ k) (hn : s.length ≤ n) (hm : s.length + w.length ≤ m) :
    repeatStep (run body) m (s ++ w) (found.extend w) next'
      = (repeatStep (run body) n s found next).map (·.extend w) := by
  have hstuck : ∀ fuel, Stuck w (repeatStep (run body) fuel · · next') :=
    stuck_repeatStep (fun h => stuck_run body h) h.stuck
  have hnil : Stuck [] next := fun s found hs =>
    List.suffix_nil.1 hs ▸ h.nil_eq_none found
  induction n generalizing s m found with
  | zero =>
    obtain rfl : s = [] := List.eq_nil_of_length_eq_zero (by omega)
    rw [List.nil_append, repeatStep, h.nil_eq_none]
    exact hstuck m w _ (List.suffix_refl w)
  | succ n ih =>
    cases s with
    | nil =>
      have hnone : repeatStep (run body) (n + 1) [] found next = none :=
        stuck_repeatStep (fun h => stuck_run body h) hnil (n + 1) [] found (List.suffix_refl [])
      rw [List.nil_append, hnone]
      exact hstuck m w _ (List.suffix_refl w)
    | cons c rest =>
      obtain ⟨m, rfl⟩ : ∃ m', m = m' + 1 := ⟨m - 1, by rw [List.length_cons] at hm; omega⟩
      rw [List.length_cons] at hk hn hm
      -- a repetition takes a character, so what follows it is shorter
      have hrest : Extends w rest.length
          (fun s' found' => repeatStep (run body) n s' found' next)
          (fun s' found' => repeatStep (run body) m s' found' next') :=
        ⟨fun s' found' hs' => ih m s' found' (by omega) (by omega) (by omega), hstuck m⟩
      have hbodyrun := (hrun hrest).agree (c :: rest) found (by rw [List.length_cons]; omega)
      simp only [repeatStep]
      rw [hbodyrun, h.agree (c :: rest) found (by rw [List.length_cons]; omega)]
      cases run body (c :: rest) found fun s' found' => repeatStep (run body) n s' found' next <;>
        rfl

/-- A pattern does not see a tail that what stands behind it does not see. -/
theorem extends_run (p : Pattern) (hp : p.isRegular = true) {k : Nat} {next next' : Continuation}
    (h : Extends w k next next') :
    Extends w (k + p.least) (run p · · next) (run p · · next') := by
  refine ⟨?_, stuck_run p h.stuck⟩
  induction p generalizing k next next' with
  | empty => exact h.agree
  | one p =>
    intro s found hs
    cases s with
    | nil =>
      have hnone := stuck_run (.one p) h.stuck w (found.extend w) (List.suffix_refl w)
      simpa [run] using hnone
    | cons c rest =>
      rw [List.cons_append]
      simp only [run]
      split
      · exact h.agree rest found (by simpa [least] using hs)
      · rfl
  | text t => exact fun s found hs => run_text_append h found hs
  | seq a b iha ihb =>
    intro s found hs
    rw [isRegular, Bool.and_eq_true] at hp
    have hb : Extends w (k + b.least) (run b · · next) (run b · · next') :=
      ⟨ihb hp.2 h, stuck_run b h.stuck⟩
    exact iha hp.1 hb s found (by rw [least] at hs; omega)
  | either a b iha ihb =>
    intro s found hs
    rw [isRegular, Bool.and_eq_true] at hp
    rw [least] at hs
    exact run_either_eq_map (iha hp.1 h s found (by omega)) (ihb hp.2 h s found (by omega))
  | span p =>
    intro s found hs
    exact (findSome?_runRests_append p h found hs).1
  | frugal p =>
    intro s found hs
    exact (findSome?_runRests_append p h found hs).2
  | whole p =>
    intro s found hs
    simp only [run, List.dropWhile_append]
    cases hrest : s.dropWhile p with
    | nil =>
      rw [h.nil_eq_none]
      exact h.stuck _ _ (List.dropWhile_suffix p)
    | cons c rest =>
      have hle : (c :: rest).length ≤ k :=
        (hrest ▸ (List.dropWhile_suffix p).length_le).trans hs
      exact h.agree (c :: rest) found hle
  | many body ih =>
    intro s found hs
    rw [isRegular, Bool.and_eq_true, decide_eq_true_eq] at hp
    have hrun : ∀ {k} {next next' : Continuation}, Extends w k next next' →
        Extends w (k + body.least) (run body · · next) (run body · · next') :=
      fun h => ⟨ih hp.2 h, stuck_run body h.stuck⟩
    exact extends_repeatStep hp.1 hrun h _ _ s found hs le_rfl (by rw [List.length_append])
  | group i body ih =>
    intro s found hs
    refine ih hp ⟨fun s' found' hs' => ?_, fun s' _ hs' => h.stuck s' _ hs'⟩ s found hs
    exact h.agree s' ((i, s, s') :: found') hs'
  | atEnd =>
    intro s found hs
    cases s with
    | nil =>
      have hnone := stuck_run .atEnd h.stuck w (found.extend w) (List.suffix_refl w)
      simpa [run, h.nil_eq_none] using hnone
    | cons c rest => rfl

/-! ### What a pattern ends with -/

theorem run_seq (a b : Pattern) (s : List Char) (found : Captures) (next : Continuation) :
    run (seq a b) s found next = run a s found fun s' found' => run b s' found' next := rfl

theorem run_all_cons (p : Pattern) (ps : List Pattern) (s : List Char) (found : Captures)
    (next : Continuation) :
    run (all (p :: ps)) s found next
      = run p s found fun s' found' => run (all ps) s' found' next := by
  cases ps with
  | nil => simp [all, run]
  | cons q ps => simp [all, run]

theorem run_all_append (ps qs : List Pattern) (s : List Char) (found : Captures)
    (next : Continuation) :
    run (all (ps ++ qs)) s found next
      = run (all ps) s found fun s' found' => run (all qs) s' found' next := by
  induction ps generalizing s found with
  | nil => simp [all, run]
  | cons p ps ih =>
    rw [List.cons_append, run_all_cons, run_all_cons]
    simp only [ih]

/-- What remains to be matched sees no tail, neither `w` nor a part of it. -/
def Tolerates (w : List Char) (next : Continuation) : Prop :=
  ∀ s rest found, rest <:+ w →
    next (s ++ rest) (Captures.extend w found) = (next s found).map (·.extend w)

/-- The pattern sees no tail that what stands behind it does not see. -/
def Passes (w : List Char) (p : Pattern) : Prop :=
  ∀ ⦃next : Continuation⦄, Tolerates w next → Tolerates w (run p · · next)

/-- The pattern takes a character that is not in the tail. -/
def Halts (w : List Char) (p : Pattern) : Prop := ∀ next : Continuation, Stuck w (run p · · next)

theorem tolerates_some : Tolerates w fun _ found => some found := fun _ _ _ _ => rfl

theorem halts_one {p : Char → Bool} (hp : ∀ c ∈ w, p c = false) : Halts w (one p) := by
  intro next s found hs
  cases s with
  | nil => rfl
  | cons c s => simp [run, hp c (hs.subset (by simp))]

theorem passes_one {p : Char → Bool} (hp : ∀ c ∈ w, p c = false) : Passes w (one p) := by
  intro next h s rest found hrest
  cases s with
  | nil => exact halts_one hp next rest _ hrest
  | cons c s =>
    simp only [List.cons_append, run]
    split
    · exact h s rest found hrest
    · rfl

theorem halts_text {t : List Char} (hne : t ≠ []) (ht : ∀ c ∈ t, c ∉ w) : Halts w (text t) := by
  intro next s found hs
  cases t with
  | nil => exact absurd rfl hne
  | cons c t =>
    cases hfront : Text.dropFront? (c :: t) s with
    | none => simp only [run, hfront]
    | some rest =>
      rw [Text.dropFront?_eq_some_iff] at hfront
      exact absurd (hs.subset (hfront ▸ by simp)) (ht c (by simp))

/-- A text of other characters than those of the tail stands in the line or nowhere. -/
theorem passes_text {t : List Char} (ht : ∀ c ∈ t, c ∉ w) : Passes w (text t) := by
  intro next h s rest found hrest
  simp only [run]
  cases hs : Text.dropFront? t s with
  | some more =>
    rw [Text.dropFront?_eq_some_iff] at hs
    subst hs
    rw [Text.dropFront?_eq_some_iff.2 (List.append_assoc t more rest)]
    exact h more rest found hrest
  | none =>
    cases hw : Text.dropFront? t (s ++ rest) with
    | none => rfl
    | some more =>
      rw [Text.dropFront?_eq_some_iff] at hw
      rcases List.append_eq_append_iff.1 hw with ⟨tail, htail, hmore⟩ | ⟨tail, hs', -⟩
      · cases tail with
        | nil =>
          have htext : s = t ++ [] := by simpa using htail.symm
          rw [Text.dropFront?_eq_some_iff.2 htext] at hs
          exact absurd hs (by simp)
        | cons c tail =>
          refine absurd (hrest.subset ?_) (ht c (htail ▸ by simp))
          exact hmore ▸ by simp
      · rw [Text.dropFront?_eq_some_iff.2 hs'] at hs
        exact absurd hs (by simp)

theorem passes_seq {a b : Pattern} (ha : Passes w a) (hb : Passes w b) : Passes w (seq a b) :=
  fun _ h => ha (hb h)

theorem passes_either {a b : Pattern} (ha : Passes w a) (hb : Passes w b) :
    Passes w (either a b) := fun _ h s rest found hrest =>
  run_either_eq_map (ha h s rest found hrest) (hb h s rest found hrest)

theorem passes_optional {p : Pattern} (hp : Passes w p) : Passes w (optional p) :=
  passes_either hp fun _ h => h

/-- A whole run takes the tail with it, so what stands behind it has to be the same without a tail
only when nothing else is left. -/
theorem tolerates_whole {p : Char → Bool} (hp : ∀ c ∈ w, p c) {next : Continuation}
    (h : ∀ s rest found, rest <:+ w → (s = [] → rest = []) →
      next (s ++ rest) (Captures.extend w found) = (next s found).map (·.extend w)) :
    Tolerates w (run (whole p) · · next) := by
  intro s rest found hrest
  have hnil : rest.dropWhile p = [] :=
    List.dropWhile_eq_nil_iff.2 fun c hc => hp c (hrest.subset hc)
  simp only [run, List.dropWhile_append]
  cases hs : s.dropWhile p with
  | nil => simpa [hnil] using h [] [] found List.nil_suffix fun _ => rfl
  | cons c s' => exact h (c :: s') rest found hrest (by simp)

theorem passes_whole {p : Char → Bool} (hp : ∀ c ∈ w, p c) : Passes w (whole p) := fun _ h =>
  tolerates_whole hp fun s rest found hrest _ => h s rest found hrest

/-- The end of a line, where a whole run has taken the tail. -/
theorem run_atEnd_append {s rest : List Char} (hs : s = [] → rest = []) (found : Captures) :
    run atEnd (s ++ rest) (Captures.extend w found) (fun _ found => some found)
      = (run atEnd s found fun _ found => some found).map (·.extend w) := by
  cases s with
  | nil =>
    obtain rfl := hs rfl
    rfl
  | cons c s => rfl

/-- White space and the end of the line, or something visible instead of the end. -/
theorem tolerates_whole_atEnd {p : Char → Bool} (hp : ∀ c ∈ w, p c) :
    Tolerates w (run (all [whole p, atEnd]) · · fun _ found => some found) := by
  simp only [all, run_seq]
  exact tolerates_whole hp fun _ _ found _ hs => run_atEnd_append hs found

theorem tolerates_whole_either_atEnd {p : Char → Bool} (hp : ∀ c ∈ w, p c) {q : Pattern}
    (hq : Passes w q) :
    Tolerates w (run (all [whole p, either q atEnd]) · · fun _ found => some found) := by
  simp only [all, run_seq]
  exact tolerates_whole hp fun s rest found hrest hs =>
    run_either_eq_map (hq tolerates_some s rest found hrest) (run_atEnd_append hs found)

theorem tolerates_all {ps : List Pattern} (hps : ∀ p ∈ ps, Passes w p) {next : Continuation}
    (h : Tolerates w next) : Tolerates w (run (all ps) · · next) := by
  induction ps with
  | nil => simpa [all, run] using h
  | cons p ps ih =>
    simp only [run_all_cons]
    exact hps p (by simp) (ih fun q hq => hps q (List.mem_cons_of_mem _ hq))

/-- A pattern that has to take a character outside of the tail, and behind it sees no tail, covers
the same in a line with the tail as in the line. -/
theorem captures?_append {parts : List Pattern} (n : Nat) (p : Pattern) (qs ending : List Pattern)
    (hparts : parts.drop n = p :: qs ++ ending) (hregular : (all (parts.take n)).isRegular = true)
    (hp : Halts w p) (hqs : ∀ q ∈ p :: qs, Passes w q)
    (hend : Tolerates w (run (all ending) · · fun _ found => some found)) (line : List Char) :
    (all parts).captures? (line ++ w) = ((all parts).captures? line).map (·.extend w) := by
  have htail : Extends w line.length
      (run (all (p :: qs ++ ending)) · · fun _ found => some found)
      (run (all (p :: qs ++ ending)) · · fun _ found => some found) := by
    simp only [run_all_append]
    refine ⟨fun s found _ => tolerates_all hqs hend s w found (List.suffix_refl w), ?_⟩
    simp only [run_all_cons]
    exact hp _
  have hrun := (extends_run _ hregular htail).agree line [] (by omega)
  rw [← List.take_append_drop n parts, captures?, captures?, run_all_append, run_all_append, hparts]
  exact hrun

end Pattern

end Marginalia
