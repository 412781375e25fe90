import Marginalia.Proofs.Json.RoundTrip
import Marginalia.Proofs.Number

/-!
Values that are read back. Words, truth values and numbers are read as they were written, and so are
the options and the maps of values that are.
-/

namespace Marginalia

/-! ### Numbers -/

namespace Numeral

/-- The fraction of a numeral, with its point. -/
def fractionText (n : Numeral) : List Char := if n.fraction.isEmpty then [] else '.' :: n.fraction

/-- The exponent of a numeral, with its letter and its sign. -/
def exponentText (n : Numeral) : List Char :=
  match n.exponent with
  | none => []
  | some (negative, ds) => 'e' :: (if negative then '-' else '+') :: ds

theorem text_eq (n : Numeral) : n.text
    = (if n.negative then ['-'] else []) ++ n.whole ++ n.fractionText ++ n.exponentText := rfl

theorem text_append (n : Numeral) (rest : List Char) : n.text ++ rest
    = (if n.negative then ['-'] else [])
      ++ (n.whole ++ (n.fractionText ++ (n.exponentText ++ rest))) := by
  simp only [text_eq, List.append_assoc]

end Numeral

namespace Json

/-- No digit opens the text. -/
def NoDigit (text : List Char) : Prop := ∀ c ∈ text.head?, c.isDigit = false

theorem digits1?_append {ds rest : List Char} (hne : ds ≠ [])
    (hds : ∀ c ∈ ds, c.isDigit = true) (hrest : NoDigit rest) :
    digits1? (ds ++ rest) = some (ds, rest) := by
  have htake : rest.takeWhile Char.isDigit = [] := by
    cases rest with
    | nil => rfl
    | cons c rest => rw [List.takeWhile_cons, hrest c rfl]; rfl
  have hdrop : rest.dropWhile Char.isDigit = rest := by
    cases rest with
    | nil => rfl
    | cons c rest => rw [List.dropWhile_cons, hrest c rfl]; rfl
  unfold digits1?
  dsimp only
  rw [List.takeWhile_append_of_pos hds, List.dropWhile_append_of_pos hds, htake, hdrop,
    List.append_nil, if_neg (by simpa using hne)]

variable {n : Numeral} {rest : List Char}

theorem wholePart?_append (h : n.IsWritten) (hrest : NoDigit rest) :
    wholePart? (n.whole ++ rest) = some (n.whole, rest) := by
  rw [wholePart?, digits1?_append h.whole_ne h.whole hrest]
  split
  · next heq => exact heq.symm
  · next hnot heq =>
    obtain ⟨hwhole, -⟩ := Prod.mk.inj (Option.some.inj heq)
    have hzero := h.zero (by rw [hwhole]; rfl)
    rw [hwhole] at hzero
    exact absurd (List.cons.inj hzero).2 hnot
  · rfl

theorem fractionPart?_append (h : n.IsWritten) (hrest : NoDigit rest)
    (hpoint : rest.head? ≠ some '.') :
    fractionPart? (n.fractionText ++ rest) = some (n.fraction, rest) := by
  unfold Numeral.fractionText
  split
  · next hempty =>
    rw [List.nil_append, List.isEmpty_iff.1 hempty]
    unfold fractionPart?
    split
    · exact absurd rfl hpoint
    · rfl
  · next hne => exact digits1?_append (by simpa using hne) h.fraction hrest

theorem exponentPart?_append (h : n.IsWritten) (hrest : NoDigit rest)
    (hlow : rest.head? ≠ some 'e') (hhigh : rest.head? ≠ some 'E') :
    exponentPart? (n.exponentText ++ rest) = some (n.exponent, rest) := by
  unfold Numeral.exponentText
  cases hexponent : n.exponent with
  | none =>
    cases rest with
    | nil => rfl
    | cons c rest =>
      have hc : c ≠ 'e' ∧ c ≠ 'E' := by simpa using And.intro hlow hhigh
      simp [exponentPart?, hc.1, hc.2]
  | some e =>
    obtain ⟨negative, ds⟩ := e
    obtain ⟨hne, hds⟩ := h.exponent _ hexponent
    have hdigits := digits1?_append hne hds hrest
    cases negative <;> simp [exponentPart?, hdigits]

/-- What ends a value goes on with no numeral. -/
theorem not_mem_numeral_of_endsValue (h : endsValue rest) : NoDigit rest ∧
    rest.head? ≠ some '.' ∧ rest.head? ≠ some 'e' ∧ rest.head? ≠ some 'E' := by
  cases rest with
  | nil => simp [NoDigit]
  | cons c rest =>
    simp only [endsValue, isSpace, Bool.or_eq_true, beq_iff_eq] at h
    obtain ((rfl | rfl) | rfl) | (((rfl | rfl) | rfl) | rfl) := h <;> simp [NoDigit]

/-- A numeral is read up to its end. -/
theorem number?_text (h : n.IsWritten) (hrest : endsValue rest) :
    number? (n.text ++ rest) = some (n, rest) := by
  obtain ⟨hdigit, hpoint, hlow, hhigh⟩ := not_mem_numeral_of_endsValue hrest
  have hexponent := exponentPart?_append h hdigit hlow hhigh
  have hfraction : fractionPart? (n.fractionText ++ (n.exponentText ++ rest))
      = some (n.fraction, n.exponentText ++ rest) := by
    refine fractionPart?_append h ?_ ?_
    all_goals
      unfold Numeral.exponentText
      cases n.exponent
    · exact hdigit
    · simp [NoDigit]
    · exact hpoint
    · simp
  have hwhole : wholePart? (n.whole ++ (n.fractionText ++ (n.exponentText ++ rest)))
      = some (n.whole, n.fractionText ++ (n.exponentText ++ rest)) := by
    refine wholePart?_append h ?_
    unfold Numeral.fractionText Numeral.exponentText
    cases n.fraction with
    | nil =>
      cases n.exponent
      · exact hdigit
      · simp [NoDigit]
    | cons => simp [NoDigit]
  have hsign : ∀ tail, n.whole ++ (n.fractionText ++ (n.exponentText ++ rest)) ≠ '-' :: tail := by
    intro tail htail
    obtain ⟨c, whole, hfront⟩ := List.exists_cons_of_ne_nil h.whole_ne
    rw [hfront, List.cons_append] at htail
    have hdigit := h.whole c (by simp [hfront])
    rw [(List.cons.inj htail).1] at hdigit
    exact absurd hdigit (by decide)
  rw [Numeral.text_append]
  cases hnegative : n.negative with
  | true => simp [number?, hwhole, hfraction, hexponent, ← hnegative]
  | false =>
    rw [if_neg (by simp), List.nil_append, number?]
    · simp [hwhole, hfraction, hexponent, ← hnegative]
    · exact hsign

/-- What a number opens with opens nothing else. -/
theorem value?_of_number? {text : List Char} (h : number? text = some (n, rest)) (fuel : Nat) :
    value? (fuel + 1) text = some (number n, rest) := by
  have hspace : skipSpace text = text := by
    cases text with
    | nil => rfl
    | cons c tail =>
      refine skipSpace_of_head ?_ tail
      by_contra hc
      simp only [isSpace, Bool.not_eq_false, Bool.or_eq_true, beq_iff_eq] at hc
      obtain ((rfl | rfl) | rfl) | rfl := hc <;> simp [number?, wholePart?, digits1?] at h
  rw [value?, hspace]
  split
  case h_8 => rw [h]; rfl
  all_goals simp [number?, wholePart?, digits1?] at h

variable {sp : Spacing}

theorem readsBack_number (sp : Spacing) (depth : Nat) (h : n.IsWritten) :
    ReadsBack sp depth (number n) := by
  intro fuel rest hf hrest
  rw [sp.text_plain _ _ (by simp) (by simp), compact] at hf ⊢
  have hlength : 0 < n.text.length := by
    have hwhole := List.length_pos_iff.2 h.whole_ne
    simp only [Numeral.text_eq, List.length_append]
    omega
  obtain ⟨fuel, rfl⟩ : ∃ m, fuel = m + 1 := ⟨fuel - 1, by omega⟩
  exact value?_of_number? (number?_text h hrest) fuel

/-! ### Null and truth values -/

theorem readsBack_null (sp : Spacing) (depth : Nat) : ReadsBack sp depth null := by
  intro fuel rest hf _
  rw [sp.text_plain _ _ (by simp) (by simp), compact] at hf ⊢
  obtain ⟨fuel, rfl⟩ : ∃ m, fuel = m + 1 := ⟨fuel - 1, by simp at hf; omega⟩
  rfl

theorem readsBack_bool (sp : Spacing) (depth : Nat) (b : Bool) : ReadsBack sp depth (bool b) := by
  intro fuel rest hf _
  rw [sp.text_plain _ _ (by simp) (by simp)] at hf ⊢
  cases b
  all_goals
    rw [compact] at hf ⊢
    obtain ⟨fuel, rfl⟩ : ∃ m, fuel = m + 1 := ⟨fuel - 1, by simp at hf; omega⟩
    rfl

/-! ### Types -/

theorem roundTrips_bool (b : Bool) : RoundTrips b :=
  ⟨fun sp depth => readsBack_bool sp depth b, rfl⟩

/-- A count is read back. -/
theorem roundTrips_nat {k : Nat} (h : k < Numeral.countBound) : RoundTrips k where
  text sp depth := readsBack_number sp depth (Decimal.isWritten_ofNat k)
  value := by
    have hvalue := Decimal.value_digits k
    simp [toJson, ofJson?, nat, Numeral.count?, Numeral.natural?, Numeral.isInteger,
      Numeral.ofNat, hvalue, h]

/-- A binary value is read back if its shortest numeral stands for it. -/
theorem roundTrips_single {c : Single} (h : ofJson? (toJson c) = some c) : RoundTrips c where
  text sp depth := by
    cases hnumeral : Decimal.numeral? .single c with
    | none => simp [toJson, hnumeral, ofJson?] at h
    | some n =>
      have hjson : toJson c = number n := by simp [toJson, hnumeral]
      rw [hjson]
      exact readsBack_number sp depth (Decimal.isWritten_of_numeral? hnumeral)
  value := h

section

variable {α : Type} [Writable α] [Readable α]

/-- A value that is written as a text is read back if that text is read as the value. -/
theorem roundTrips_of_string {a : α} {s : String} (hs : toJson a = string s)
    (ha : ofJson? (string s) = some a) : RoundTrips a where
  text sp depth := hs ▸ readsBack_string sp depth s
  value := hs ▸ ha

/-- An option is read back if its value is, where null stands for no value. -/
theorem roundTrips_option (hnull : ofJson? (α := α) null = none) {o : Option α}
    (h : ∀ a ∈ o, RoundTrips a) : RoundTrips o where
  text sp depth := by
    cases o with
    | none => exact readsBack_null sp depth
    | some a => exact (h a rfl).text sp depth
  value := by
    cases o with
    | none => rfl
    | some a =>
      have ha := (h a rfl).value
      have hne : toJson a ≠ null := fun heq => by rw [heq, hnull] at ha; cases ha
      simp only [toJson, ofJson?, Readable.ofJson?] at ha hne ⊢
      rw [ha]
      rfl

end

/-! ### Maps -/

/-- The keys of a map rise. -/
def KeysRise {α : Type} (m : List (String × α)) : Prop := m.Pairwise fun p q => p.1 < q.1

instance {α : Type} (m : List (String × α)) : Decidable (KeysRise m) :=
  inferInstanceAs (Decidable (m.Pairwise fun p q => p.1 < q.1))

/-- A key behind all others is put last. -/
theorem insertKey_of_lt {α : Type} {key : String} {m : List (String × α)}
    (h : ∀ p ∈ m, p.1 < key) (a : α) : insertKey key a m = m ++ [(key, a)] := by
  induction m with
  | nil => rfl
  | cons p m ih =>
    have hp : p.1 < key := h p (by simp)
    have hnot : ¬ key < p.1 := Std.not_gt_of_lt hp
    have hne : key ≠ p.1 := fun heq => by simp [heq] at hp
    rw [insertKey, if_neg hnot, if_neg hne, ih fun q hq => h q (List.mem_cons_of_mem _ hq)]
    rfl

section

variable {α : Type} [Writable α] [Readable α] {m : List (String × α)}

/-- The fields of a map are read behind those that were read before. -/
theorem foldlM_insertKey (h : ∀ p ∈ m, RoundTrips p.2) {done : List (String × α)}
    (hrise : KeysRise (done ++ m)) :
    (keyed (m.map fun (k, a) => (k, toJson a))).foldlM
      (fun m (k, v) => do return insertKey (← k) (← ofJson? v) m) done = some (done ++ m) := by
  induction m generalizing done with
  | nil => simp [keyed]
  | cons p m ih =>
    have hbefore : ∀ q ∈ done, q.1 < p.1 := fun q hq =>
      (List.pairwise_append.1 hrise).2.2 q hq p (by simp)
    rw [List.append_cons] at hrise ⊢
    rw [← ih (fun q hq => h q (List.mem_cons_of_mem _ hq)) hrise]
    simp [keyed, (h p (by simp)).value, insertKey_of_lt hbefore]

/-- A map whose keys rise is read as it was written. -/
theorem toMap?_ofMap (hrise : KeysRise m) (h : ∀ p ∈ m, RoundTrips p.2) :
    toMap? (ofMap m) = some m := foldlM_insertKey h hrise

theorem readsBack_ofMap (sp : Spacing) (depth : Nat) (h : ∀ p ∈ m, RoundTrips p.2) :
    ReadsBack sp depth (ofMap m) :=
  readsBack_ofFields fun f hf => by
    obtain ⟨p, hp, rfl⟩ := List.mem_map.1 hf
    exact (h p hp).text sp _

end

end Json

end Marginalia
