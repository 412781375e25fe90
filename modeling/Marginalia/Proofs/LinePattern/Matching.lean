import Marginalia.Proofs.LinePattern

/-!
Patterns on lines whose parts are known. Where a part of a pattern can take its own part of the line
and what stands behind it cannot begin earlier or later, the match is followed from left to right,
one equation for each part. Only a greedy run that the rest of the pattern shares characters with
leaves a choice: it takes the longest stretch behind which the rest succeeds, as a frugal one takes
the shortest.
-/

namespace Marginalia

/-! ### What a group covers -/

theorem Captures.get_cons_self (i : Nat) (t rest : List Char) (found : Captures) :
    Captures.get ((i, t ++ rest, rest) :: found) i = String.ofList t := by
  simp [get, get?]

theorem Captures.get_cons_of_ne {i j : Nat} (h : i ≠ j) (before after : List Char)
    (found : Captures) : Captures.get ((j, before, after) :: found) i = found.get i := by
  have hij : (i == j) = false := by simpa using h
  simp only [get, get?, List.lookup_cons, hij]

namespace Pattern

variable {s t rest : List Char} {found : Captures} {next : Continuation}

/-- The text does not start with a character of the class. -/
def StartsOutside (p : Char → Bool) (s : List Char) : Prop := ∀ c ∈ s.head?, p c = false

@[simp] theorem startsOutside_nil (p : Char → Bool) : StartsOutside p [] := by
  simp [StartsOutside]

@[simp] theorem startsOutside_cons {p : Char → Bool} {c : Char} :
    StartsOutside p (c :: s) ↔ p c = false := by
  simp [StartsOutside]

instance (p : Char → Bool) : (s : List Char) → Decidable (StartsOutside p s)
  | [] => isTrue (startsOutside_nil p)
  | _ :: _ => decidable_of_iff _ startsOutside_cons.symm

/-- Every text falls into a stretch of characters of a class and a text that starts with none. -/
theorem exists_startsOutside (p : Char → Bool) (s : List Char) :
    ∃ t rest, s = t ++ rest ∧ (∀ c ∈ t, p c = true) ∧ StartsOutside p rest := by
  refine ⟨s.takeWhile p, s.dropWhile p, List.takeWhile_append_dropWhile.symm,
    List.all_eq_true.1 List.all_takeWhile, fun c hc => ?_⟩
  have hhead := List.head?_dropWhile_not p s
  rw [Option.mem_def.1 hc] at hhead
  exact hhead

/-- What starts outside of a class is left when a stretch of its characters is dropped. -/
theorem dropWhile_append_of_startsOutside {p : Char → Bool} (ht : ∀ c ∈ t, p c = true)
    (hrest : StartsOutside p rest) : (t ++ rest).dropWhile p = rest := by
  rw [List.dropWhile_append_of_pos ht]
  cases rest with
  | nil => rfl
  | cons c rest => simp [startsOutside_cons.1 hrest]

/-- A text falls in one way only into a stretch of characters of a class and a text that starts
with none. -/
theorem eq_of_append_startsOutside {p : Char → Bool} {t' rest' : List Char}
    (ht : ∀ c ∈ t, p c = true) (hrest : StartsOutside p rest) (ht' : ∀ c ∈ t', p c = true)
    (hrest' : StartsOutside p rest') (h : t ++ rest = t' ++ rest') : t = t' ∧ rest = rest' := by
  have hsame : rest = rest' := by
    rw [← dropWhile_append_of_startsOutside ht hrest, h,
      dropWhile_append_of_startsOutside ht' hrest']
  subst hsame
  exact ⟨List.append_cancel_right h, rfl⟩

theorem startsOutside_append {p : Char → Bool} (ht : ∀ c ∈ t, p c = false)
    (hs : StartsOutside p s) : StartsOutside p (t ++ s) := by
  cases t with
  | nil => exact hs
  | cons c t => exact startsOutside_cons.2 (ht c List.mem_cons_self)

theorem StartsOutside.mono {p q : Char → Bool} (h : StartsOutside p s)
    (hpq : ∀ c, q c = true → p c = true) : StartsOutside q s := by
  intro c hc
  rw [Bool.eq_false_iff]
  intro hq
  exact Bool.noConfusion ((h c hc).symm.trans (hpq c hq))

/-! ### Parts that leave no choice -/

theorem run_one_eq_some_iff {p : Char → Bool} {r : Captures} :
    run (one p) s found next = some r
      ↔ ∃ c rest, s = c :: rest ∧ p c = true ∧ next rest found = some r := by
  cases s with
  | nil => simp [run]
  | cons c s =>
    simp only [run, Option.ite_none_right_eq_some]
    refine ⟨fun h => ⟨c, s, rfl, h⟩, ?_⟩
    rintro ⟨d, rest, hs, h⟩
    obtain ⟨rfl, rfl⟩ := List.cons.inj hs
    exact h

theorem run_text_eq_some_iff {t : List Char} {r : Captures} :
    run (text t) s found next = some r ↔ ∃ rest, s = t ++ rest ∧ next rest found = some r := by
  simp only [run, ← Text.dropFront?_eq_some_iff]
  cases Text.dropFront? t s <;> simp

theorem run_group (i : Nat) (body : Pattern) :
    run (group i body) s found next
      = run body s found fun s' found' => next s' ((i, s, s') :: found') := rfl

theorem run_optional (p : Pattern) :
    run (optional p) s found next = (run p s found next).or (next s found) :=
  run_either p empty

/-- What may be missing is left out where it does not lead to a match. -/
theorem run_optional_of_none {p : Pattern} (h : run p s found next = none) :
    run (optional p) s found next = next s found := by
  rw [run_optional, h, Option.none_or]

/-- A whole run takes a stretch of its characters up to one that is none of them. -/
theorem run_whole {p : Char → Bool} (ht : ∀ c ∈ t, p c = true) (hrest : StartsOutside p rest) :
    run (whole p) (t ++ rest) found next = next rest found := by
  rw [run, dropWhile_append_of_startsOutside ht hrest]

/-! ### What cannot begin with a character -/

/-- What remains to be matched cannot begin with a character of the class. -/
def Rejects (p : Char → Bool) (next : Continuation) : Prop :=
  ∀ c rest found, p c = true → next (c :: rest) found = none

theorem rejects_one {p q : Char → Bool} (h : ∀ c, p c = true → q c = false) :
    Rejects p (run (one q) · · next) := by
  intro c rest found hc
  simp [run, h c hc]

theorem rejects_text {p : Char → Bool} (hne : t ≠ []) (ht : StartsOutside p t) :
    Rejects p (run (text t) · · next) := by
  intro d rest found hd
  obtain ⟨c, t, rfl⟩ := List.exists_cons_of_ne_nil hne
  have hcd : c ≠ d := by
    rintro rfl
    simp [hd] at ht
  simp [run, Text.dropFront?, hcd]

theorem rejects_whole {p q : Char → Bool} (h : ∀ c, p c = true → q c = false)
    (hnext : Rejects p next) : Rejects p (run (whole q) · · next) := by
  intro c rest found hc
  simpa [run, h c hc] using hnext c rest found hc

theorem rejects_optional {p : Char → Bool} {q : Pattern} (hq : Rejects p (run q · · next))
    (hnext : Rejects p next) : Rejects p (run (optional q) · · next) := by
  intro c rest found hc
  have hnone : run q (c :: rest) found next = none := hq c rest found hc
  exact (run_optional_of_none hnone).trans (hnext c rest found hc)

theorem rejects_all_cons {p : Char → Bool} {q : Pattern} {qs : List Pattern}
    (h : Rejects p (run q · · fun s' found' => run (all qs) s' found' next)) :
    Rejects p (run (all (q :: qs)) · · next) := by
  intro c rest found hc
  exact (run_all_cons q qs _ found next).trans (h c rest found hc)

theorem Rejects.group {p : Char → Bool} (h : Rejects p next) (i : Nat) (s : List Char) :
    Rejects p fun s' found' => next s' ((i, s, s') :: found') :=
  fun c rest _ hc => h c rest _ hc

/-! ### Greedy runs -/

theorem run_span_nil (p : Char → Bool) : run (span p) [] found next = next [] found := by
  simp [run, runRests]

theorem run_span_of_not {p : Char → Bool} {c : Char} (h : p c = false) :
    run (span p) (c :: rest) found next = next (c :: rest) found := by
  simp [run, runRests, h]

/-- A greedy run takes a character if that leads to a match. -/
theorem run_span_cons {p : Char → Bool} {c : Char} (h : p c = true) :
    run (span p) (c :: rest) found next
      = (run (span p) rest found next).or (next (c :: rest) found) := by
  simp only [run, runRests, h, if_true]
  rw [runRests_append_done, List.findSome?_append]
  simp

/-- A greedy run gives nothing back where the rest of the pattern cannot begin with one of its
characters. -/
theorem run_span_of_rejects {p : Char → Bool} (hnext : Rejects p next) :
    run (span p) s found next = run (whole p) s found next := by
  induction s with
  | nil => exact run_span_nil p
  | cons c s ih =>
    cases hc : p c with
    | false => rw [run_span_of_not hc, run, List.dropWhile_cons_of_neg (by simp [hc])]
    | true =>
      rw [run_span_cons hc, ih, hnext c s found hc, Option.or_none, run, run,
        List.dropWhile_cons_of_pos hc]

/-- The text falls into a stretch of characters of the class and a rest. -/
def IsStretch (p : Char → Bool) (s t rest : List Char) : Prop :=
  s = t ++ rest ∧ ∀ c ∈ t, p c = true

theorem isStretch_nil {p : Char → Bool} : IsStretch p [] t rest ↔ t = [] ∧ rest = [] := by
  refine ⟨fun h => List.append_eq_nil_iff.1 h.1.symm, ?_⟩
  rintro ⟨rfl, rfl⟩
  exact ⟨rfl, by simp⟩

/-- A stretch stops in front of a character, or goes on behind it if that is in the class. -/
theorem isStretch_cons {p : Char → Bool} {c : Char} :
    IsStretch p (c :: s) t rest
      ↔ t = [] ∧ rest = c :: s ∨ p c = true ∧ ∃ more, t = c :: more ∧ IsStretch p s more rest := by
  constructor
  · rintro ⟨hs, ht⟩
    cases t with
    | nil => exact .inl ⟨rfl, hs.symm⟩
    | cons d more =>
      obtain ⟨rfl, hs'⟩ := List.cons.inj hs
      obtain ⟨hc, hmore⟩ := List.forall_mem_cons.1 ht
      exact .inr ⟨hc, more, rfl, hs', hmore⟩
  · rintro (⟨rfl, rfl⟩ | ⟨hc, more, rfl, rfl, hmore⟩)
    · exact ⟨rfl, by simp⟩
    · exact ⟨rfl, List.forall_mem_cons.2 ⟨hc, hmore⟩⟩

/-- A greedy run fails if the rest of the pattern fails behind every stretch. -/
theorem run_span_eq_none_iff {p : Char → Bool} :
    run (span p) s found next = none ↔ ∀ t rest, IsStretch p s t rest → next rest found = none := by
  induction s with
  | nil => simp [run_span_nil, isStretch_nil]
  | cons c s ih =>
    cases hc : p c with
    | false => simp [run_span_of_not hc, isStretch_cons, hc]
    | true =>
      rw [run_span_cons hc, Option.or_eq_none_iff, ih]
      constructor
      · rintro ⟨hlonger, hhere⟩ t rest ht
        rcases isStretch_cons.1 ht with ⟨-, rfl⟩ | ⟨-, more, -, hmore⟩
        · exact hhere
        · exact hlonger more rest hmore
      · intro h
        refine ⟨fun t rest ht => ?_, h [] (c :: s) (isStretch_cons.2 (.inl ⟨rfl, rfl⟩))⟩
        exact h (c :: t) rest (isStretch_cons.2 (.inr ⟨hc, t, rfl, ht⟩))

/-- A greedy run takes the longest stretch behind which the rest of the pattern succeeds. -/
theorem exists_longest_of_run_span {p : Char → Bool} {r : Captures}
    (h : run (span p) s found next = some r) :
    ∃ t rest, IsStretch p s t rest ∧ next rest found = some r
      ∧ ∀ t' rest', IsStretch p s t' rest' → next rest' found ≠ none →
        t'.length ≤ t.length := by
  induction s with
  | nil =>
    rw [run_span_nil] at h
    refine ⟨[], [], isStretch_nil.2 ⟨rfl, rfl⟩, h, fun t' rest' ht' _ => ?_⟩
    rw [(isStretch_nil.1 ht').1]
  | cons c s ih =>
    -- the stretch stops here unless a longer one leads to a match
    cases hlonger : if p c then run (span p) s found next else none with
    | none =>
      refine ⟨[], c :: s, isStretch_cons.2 (.inl ⟨rfl, rfl⟩), ?_, fun t' rest' ht' hnext' => ?_⟩
      · cases hc : p c with
        | false => rwa [run_span_of_not hc] at h
        | true =>
          rw [hc, if_pos rfl] at hlonger
          rwa [run_span_cons hc, hlonger, Option.none_or] at h
      · rcases isStretch_cons.1 ht' with ⟨rfl, -⟩ | ⟨hc, more, -, hmore⟩
        · exact le_rfl
        · rw [hc, if_pos rfl, run_span_eq_none_iff] at hlonger
          exact absurd (hlonger more rest' hmore) hnext'
    | some r' =>
      obtain ⟨hc, hrun⟩ := Option.ite_none_right_eq_some.1 hlonger
      rw [run_span_cons hc, hrun, Option.some_or] at h
      obtain ⟨t, rest, ht, hnext, hmax⟩ := ih (hrun.trans h)
      refine ⟨c :: t, rest, isStretch_cons.2 (.inr ⟨hc, t, rfl, ht⟩), hnext,
        fun t' rest' ht' hnext' => ?_⟩
      rcases isStretch_cons.1 ht' with ⟨rfl, -⟩ | ⟨-, more, rfl, hmore⟩
      · exact Nat.zero_le _
      · exact Nat.succ_le_succ (hmax more rest' hmore hnext')

/-- A greedy run takes a stretch up to a character that is none of its own, if that leads to a
match. -/
theorem run_span_of_some {p : Char → Bool} {r : Captures} (ht : ∀ c ∈ t, p c = true)
    (hrest : StartsOutside p rest) (h : next rest found = some r) :
    run (span p) (t ++ rest) found next = some r := by
  induction t with
  | nil =>
    cases rest with
    | nil => rwa [List.append_nil, run_span_nil]
    | cons c rest => rwa [List.nil_append, run_span_of_not (startsOutside_cons.1 hrest)]
  | cons c t ih =>
    obtain ⟨hc, ht⟩ := List.forall_mem_cons.1 ht
    rw [List.cons_append, run_span_cons hc, ih ht, Option.some_or]

/-! ### Frugal runs -/

/-- A frugal run takes a character only where stopping in front of it does not lead to a match. -/
theorem run_frugal_cons {p : Char → Bool} {c : Char} (h : p c = true) :
    run (frugal p) (c :: rest) found next
      = (next (c :: rest) found).or (run (frugal p) rest found next) := by
  simp only [run, runRests, h, if_true]
  rw [runRests_append_done, List.reverse_append, List.findSome?_append]
  simp

/-- A frugal run stops at once where that leads to a match. -/
theorem run_frugal_of_some {p : Char → Bool} {r : Captures} (h : next s found = some r) :
    run (frugal p) s found next = some r := by
  cases s with
  | nil => simpa [run, runRests] using h
  | cons c s =>
    cases hc : p c with
    | false => simpa [run, runRests, hc] using h
    | true => rw [run_frugal_cons hc, h, Option.some_or]

/-- A frugal run takes the shortest stretch behind which the rest of the pattern succeeds. -/
theorem run_frugal_of_shortest {p : Char → Bool} {r : Captures} (ht : ∀ c ∈ t, p c = true)
    (hshort : ∀ back, back ≠ [] → back <:+ t → next (back ++ rest) found = none)
    (h : next rest found = some r) : run (frugal p) (t ++ rest) found next = some r := by
  induction t with
  | nil => exact run_frugal_of_some h
  | cons c t ih =>
    obtain ⟨hc, ht⟩ := List.forall_mem_cons.1 ht
    have hhere : next (c :: t ++ rest) found = none :=
      hshort _ (List.cons_ne_nil c t) (List.suffix_refl _)
    rw [List.cons_append] at hhere ⊢
    rw [run_frugal_cons hc, hhere, Option.none_or]
    exact ih ht fun back hne hback => hshort back hne (hback.trans (List.suffix_cons c t))

end Pattern

end Marginalia
