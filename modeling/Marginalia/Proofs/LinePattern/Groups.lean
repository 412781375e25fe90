import Mathlib.Data.List.Forall2
import Marginalia.LinePattern

/-!
What a pattern can take. Which way of a match is preferred does not matter to what its groups can
cover: every group covers a text that its own pattern takes. The texts are given by rules, one for
each pattern, and every match follows them.
-/

namespace Marginalia

namespace Pattern

/-- A pattern can take a text, with what its groups cover, the latest group first. -/
inductive Takes : Pattern → List Char → List (Nat × List Char) → Prop where
  | empty : Takes empty [] []
  | one {p : Char → Bool} {c : Char} : p c → Takes (one p) [c] []
  | text (s : List Char) : Takes (text s) s []
  | seq {a b : Pattern} {s t : List Char} {gs hs : List (Nat × List Char)} :
    Takes a s gs → Takes b t hs → Takes (seq a b) (s ++ t) (hs ++ gs)
  | first {a b : Pattern} {s : List Char} {gs : List (Nat × List Char)} :
    Takes a s gs → Takes (either a b) s gs
  | second {a b : Pattern} {s : List Char} {gs : List (Nat × List Char)} :
    Takes b s gs → Takes (either a b) s gs
  | span {p : Char → Bool} {s : List Char} : (∀ c ∈ s, p c) → Takes (span p) s []
  | whole {p : Char → Bool} {s : List Char} : (∀ c ∈ s, p c) → Takes (whole p) s []
  | frugal {p : Char → Bool} {s : List Char} : (∀ c ∈ s, p c) → Takes (frugal p) s []
  | none {body : Pattern} : Takes (many body) [] []
  | again {body : Pattern} {s t : List Char} {gs hs : List (Nat × List Char)} :
    Takes body s gs → Takes (many body) t hs → Takes (many body) (s ++ t) (hs ++ gs)
  | group {i : Nat} {body : Pattern} {s : List Char} {gs : List (Nat × List Char)} :
    Takes body s gs → Takes (group i body) s ((i, s) :: gs)
  | atEnd : Takes atEnd [] []

/-! ### Matches -/

/-- A capture covers the text of a group. -/
def Covers (capture : Nat × List Char × List Char) (g : Nat × List Char) : Prop :=
  capture.1 = g.1 ∧ capture.2.1 = g.2 ++ capture.2.2

/-- A match takes a text that the pattern can take, and goes on behind it with its groups. -/
def Follows (p : Pattern) (s : List Char) (found : Captures) (next : Continuation)
    (r : Captures) : Prop :=
  ∃ t rest gs new, s = t ++ rest ∧ Takes p t gs ∧ List.Forall₂ Covers new gs
    ∧ next rest (new ++ found) = some r

theorem exists_of_mem_runRests {p : Char → Bool} {s rest : List Char} {done : List (List Char)}
    (h : rest ∈ runRests p done s) : rest ∈ done ∨ ∃ t, (∀ c ∈ t, p c) ∧ s = t ++ rest := by
  induction s generalizing done with
  | nil =>
    rcases List.mem_cons.1 h with rfl | h
    · exact .inr ⟨[], by simp, rfl⟩
    · exact .inl h
  | cons c s ih =>
    rw [runRests] at h
    split at h
    · next hc =>
      rcases ih h with h | ⟨t, ht, rfl⟩
      · rcases List.mem_cons.1 h with rfl | h
        · exact .inr ⟨[], by simp, rfl⟩
        · exact .inl h
      · exact .inr ⟨c :: t, List.forall_mem_cons.2 ⟨hc, ht⟩, rfl⟩
    · rcases List.mem_cons.1 h with rfl | h
      · exact .inr ⟨[], by simp, rfl⟩
      · exact .inl h

theorem follows_repeatStep {body : Pattern}
    (hbody : ∀ {s found next r}, run body s found next = some r → body.Follows s found next r)
    (fuel : Nat) {s : List Char} {found : Captures} {next : Continuation} {r : Captures}
    (h : repeatStep (run body) fuel s found next = some r) :
    (many body).Follows s found next r := by
  induction fuel generalizing s found with
  | zero => exact ⟨[], s, [], [], rfl, .none, .nil, h⟩
  | succ fuel ih =>
    rw [repeatStep] at h
    split at h
    · next result hstep =>
      obtain rfl := Option.some.inj h
      obtain ⟨t, rest, gs, new, rfl, ht, hnew, hnext⟩ := hbody hstep
      obtain ⟨t', rest', gs', new', rfl, ht', hnew', hnext'⟩ := ih hnext
      refine ⟨t ++ t', rest', gs' ++ gs, new' ++ new, by rw [List.append_assoc], .again ht ht',
        List.rel_append hnew' hnew, ?_⟩
      rwa [List.append_assoc]
    · exact ⟨[], s, [], [], rfl, .none, .nil, h⟩

/-- Every match follows the rules. -/
theorem follows_run {p : Pattern} {s : List Char} {found : Captures} {next : Continuation}
    {r : Captures} (h : run p s found next = some r) : p.Follows s found next r := by
  induction p generalizing s found next r with
  | empty => exact ⟨[], s, [], [], rfl, .empty, .nil, h⟩
  | one p =>
    cases s with
    | nil => cases h
    | cons c rest =>
      rw [run] at h
      split at h
      · next hc => exact ⟨[c], rest, [], [], rfl, .one hc, .nil, h⟩
      · cases h
  | text t =>
    rw [run] at h
    split at h
    · next rest hrest =>
      exact ⟨t, rest, [], [], Text.dropFront?_eq_some_iff.1 hrest, .text t, .nil, h⟩
    · cases h
  | seq a b iha ihb =>
    obtain ⟨t, rest, gs, new, rfl, ht, hnew, hnext⟩ := iha h
    obtain ⟨t', rest', gs', new', rfl, ht', hnew', hnext'⟩ := ihb hnext
    refine ⟨t ++ t', rest', gs' ++ gs, new' ++ new, by rw [List.append_assoc], .seq ht ht',
      List.rel_append hnew' hnew, ?_⟩
    rwa [List.append_assoc]
  | either a b iha ihb =>
    rw [run] at h
    split at h
    · next result ha =>
      obtain rfl := Option.some.inj h
      obtain ⟨t, rest, gs, new, hs, ht, hnew, hnext⟩ := iha ha
      exact ⟨t, rest, gs, new, hs, .first ht, hnew, hnext⟩
    · obtain ⟨t, rest, gs, new, hs, ht, hnew, hnext⟩ := ihb h
      exact ⟨t, rest, gs, new, hs, .second ht, hnew, hnext⟩
  | span p =>
    obtain ⟨rest, hrest, hnext⟩ := List.exists_of_findSome?_eq_some h
    obtain ⟨t, ht, hs⟩ := (exists_of_mem_runRests hrest).resolve_left List.not_mem_nil
    exact ⟨t, rest, [], [], hs, .span ht, .nil, hnext⟩
  | whole p =>
    exact ⟨s.takeWhile p, s.dropWhile p, [], [], List.takeWhile_append_dropWhile.symm,
      .whole fun c hc => List.all_eq_true.1 (List.all_takeWhile) c hc, .nil, h⟩
  | frugal p =>
    obtain ⟨rest, hrest, hnext⟩ := List.exists_of_findSome?_eq_some h
    obtain ⟨t, ht, hs⟩ :=
      (exists_of_mem_runRests (List.mem_reverse.1 hrest)).resolve_left List.not_mem_nil
    exact ⟨t, rest, [], [], hs, .frugal ht, .nil, hnext⟩
  | many body ih => exact follows_repeatStep ih s.length h
  | group i body ih =>
    obtain ⟨t, rest, gs, new, rfl, ht, hnew, hnext⟩ := ih h
    exact ⟨t, rest, (i, t) :: gs, (i, t ++ rest, rest) :: new, rfl, .group ht,
      .cons ⟨rfl, rfl⟩ hnew, hnext⟩
  | atEnd =>
    rw [run] at h
    split at h
    · exact ⟨[], s, [], [], rfl, .atEnd, .nil, h⟩
    · cases h

theorem get?_of_covers {found : Captures} {gs : List (Nat × List Char)}
    (h : List.Forall₂ Covers found gs) (i : Nat) : found.get? i = gs.lookup i := by
  induction h with
  | nil => rfl
  | @cons capture g found gs hc _ ih =>
    obtain ⟨j, before, after⟩ := capture
    obtain ⟨k, t⟩ := g
    obtain ⟨hjk, hbefore⟩ := hc
    obtain rfl : j = k := hjk
    obtain rfl : before = t ++ after := hbefore
    rw [Captures.get?] at ih
    simp only [Captures.get?, List.lookup_cons]
    cases hj : i == j with
    | false => exact ih
    | true => simp

/-- The groups of a match cover what the pattern says. -/
theorem exists_takes_of_captures? {p : Pattern} {line : List Char} {found : Captures}
    (h : p.captures? line = some found) :
    ∃ t gs, t <+: line ∧ p.Takes t gs ∧ ∀ i, found.get? i = gs.lookup i := by
  obtain ⟨t, rest, gs, new, rfl, ht, hnew, hnext⟩ := follows_run h
  obtain rfl := Option.some.inj hnext
  exact ⟨t, gs, List.prefix_append t rest, ht, fun i => by
    rw [List.append_nil]
    exact get?_of_covers hnew i⟩

/-! ### The pattern of a group -/

/-- The patterns that stand in a pattern as the group of a number. -/
def bodies (i : Nat) : Pattern → List Pattern
  | seq a b | either a b => bodies i a ++ bodies i b
  | many body => bodies i body
  | group j body => if i = j then body :: bodies i body else bodies i body
  | empty | one _ | text _ | span _ | whole _ | frugal _ | atEnd => []

/-- What a group covers is a text that its own pattern takes. -/
theorem Takes.exists_body {p : Pattern} {t : List Char} {gs : List (Nat × List Char)}
    (h : p.Takes t gs) {i : Nat} {u : List Char} (hu : (i, u) ∈ gs) :
    ∃ body ∈ p.bodies i, ∃ hs, body.Takes u hs := by
  induction h with
  | empty | one | text | span | whole | frugal | none | atEnd => exact absurd hu List.not_mem_nil
  | seq _ _ iha ihb =>
    rcases List.mem_append.1 hu with hu | hu
    · obtain ⟨body, hbody, hs⟩ := ihb hu
      exact ⟨body, List.mem_append_right _ hbody, hs⟩
    · obtain ⟨body, hbody, hs⟩ := iha hu
      exact ⟨body, List.mem_append_left _ hbody, hs⟩
  | first _ ih =>
    obtain ⟨body, hbody, hs⟩ := ih hu
    exact ⟨body, List.mem_append_left _ hbody, hs⟩
  | second _ ih =>
    obtain ⟨body, hbody, hs⟩ := ih hu
    exact ⟨body, List.mem_append_right _ hbody, hs⟩
  | again _ _ iha ihb => exact (List.mem_append.1 hu).elim ihb iha
  | @group j body s gs hs ih =>
    rw [bodies]
    rcases List.mem_cons.1 hu with hu | hu
    · obtain ⟨rfl, rfl⟩ := Prod.mk.inj hu
      exact ⟨body, by simp, gs, hs⟩
    · obtain ⟨body', hbody', hs'⟩ := ih hu
      refine ⟨body', ?_, hs'⟩
      split
      · exact List.mem_cons_of_mem _ hbody'
      · exact hbody'

/-- A group that took part in a match covers a text that its own pattern takes. -/
theorem exists_body_of_get? {p : Pattern} {line : List Char} {found : Captures}
    (h : p.captures? line = some found) {i : Nat} {u : List Char} (hu : found.get? i = some u) :
    ∃ body ∈ p.bodies i, ∃ hs, body.Takes u hs := by
  obtain ⟨t, gs, -, ht, hgs⟩ := exists_takes_of_captures? h
  rw [hgs] at hu
  obtain ⟨before, after, rfl, -⟩ := List.lookup_eq_some_iff.1 hu
  exact ht.exists_body (List.mem_append_right _ List.mem_cons_self)

/-! ### Characters that a pattern never takes -/

/-- No text that the pattern takes has the character. -/
def avoids (c : Char) : Pattern → Bool
  | one p | span p | whole p | frugal p => !p c
  | text s => !s.contains c
  | seq a b | either a b => avoids c a && avoids c b
  | many body | group _ body => avoids c body
  | empty | atEnd => true

theorem Takes.not_mem {p : Pattern} {t : List Char} {gs : List (Nat × List Char)}
    (h : p.Takes t gs) {c : Char} (hp : p.avoids c = true) : c ∉ t := by
  induction h with
  | empty | none | atEnd => exact List.not_mem_nil
  | one hd =>
    intro hc
    obtain rfl := List.mem_singleton.1 hc
    simp [avoids, hd] at hp
  | text s => simpa [avoids] using hp
  | span hs | whole hs | frugal hs =>
    intro hc
    simp [avoids, hs c hc] at hp
  | seq _ _ iha ihb =>
    rw [avoids, Bool.and_eq_true] at hp
    exact fun hc => (List.mem_append.1 hc).elim (iha hp.1) (ihb hp.2)
  | first _ ih =>
    rw [avoids, Bool.and_eq_true] at hp
    exact ih hp.1
  | second _ ih =>
    rw [avoids, Bool.and_eq_true] at hp
    exact ih hp.2
  | again _ _ iha ihb => exact fun hc => (List.mem_append.1 hc).elim (iha hp) (ihb hp)
  | group _ ih => exact ih hp

/-- A group whose patterns all avoid a character never covers it. -/
theorem not_mem_get {p : Pattern} {line : List Char} {found : Captures}
    (h : p.captures? line = some found) {i : Nat} {c : Char}
    (hp : (p.bodies i).all (avoids c) = true) : c ∉ (found.get i).toList := by
  rw [Captures.get, String.toList_ofList]
  cases hget : found.get? i with
  | none => exact List.not_mem_nil
  | some u =>
    obtain ⟨body, hbody, hs, htakes⟩ := exists_body_of_get? h hget
    exact htakes.not_mem (List.all_eq_true.1 hp body hbody)

end Pattern

end Marginalia
