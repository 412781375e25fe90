import Mathlib.Data.List.DropRight
import Mathlib.Data.List.Sort
import Marginalia.Annotation

/-!
Reading what was written. The text of a value is read back as that value, whatever stands behind it
and whatever white space is set between its tokens, and an annotation that is written as JSON is
read as the same annotation.
-/

namespace Marginalia.Json

/-! ### String literals -/

theorem hexQuad?_hexDigit {n : Nat} (h : n < 32) :
    hexQuad? '0' '0' (hexDigit (n / 16)) (hexDigit (n % 16)) = some n := by
  revert h n
  decide

theorem pushUnit_of_lt {s : StringState} {n : Nat} (h : n < 0xD800) :
    s.pushUnit n = s.push (Char.ofNat n) := by
  have h1 : ¬ 0xD800 ≤ n := by omega
  have h2 : ¬ 0xDC00 ≤ n := by omega
  simp [StringState.pushUnit, h1, h2]

/-- An escaped character is read as that character. -/
theorem stringTail?_escapeChar (s : StringState) (c : Char) (rest : List Char) :
    stringTail? s (escapeChar c ++ rest) = stringTail? (s.push c) rest := by
  unfold escapeChar
  split_ifs with h1 h2 h3 h4 h5 h6 h7 h8
  · subst h1; rfl
  · subst h2; rfl
  · subst h3; rfl
  · subst h4; rfl
  · subst h5; rfl
  · rw [← Char.ofNat_toNat c, h6]; rfl
  · rw [← Char.ofNat_toNat c, h7]; rfl
  · simp only [List.cons_append, List.nil_append]
    rw [stringTail?, hexQuad?_hexDigit h8]
    simp only
    rw [pushUnit_of_lt (by omega), Char.ofNat_toNat]
  · rw [List.singleton_append, stringTail?.eq_def]
    split <;> simp_all

theorem stringTail?_flatMap (cs rest done : List Char) :
    stringTail? ⟨done, none, false⟩ (cs.flatMap escapeChar ++ '"' :: rest)
      = some (some (String.ofList (done.reverse ++ cs)), rest) := by
  induction cs generalizing done with
  | nil => simp [stringTail?, StringState.finish]
  | cons c cs ih =>
    rw [List.flatMap_cons, List.append_assoc, stringTail?_escapeChar]
    exact (ih (c :: done)).trans (by simp)

theorem stringTail?_literal (s : String) (rest : List Char) :
    stringTail? .start (s.toList.flatMap escapeChar ++ '"' :: rest) = some (some s, rest) := by
  have h := stringTail?_flatMap s.toList rest []
  rwa [List.reverse_nil, List.nil_append, String.ofList_toList] at h

theorem keyLiteral_some (s : String) : keyLiteral (some s) = literal s := rfl

theorem literal_append (s : String) (rest : List Char) :
    literal s ++ rest = '"' :: (s.toList.flatMap escapeChar ++ '"' :: rest) := by
  simp [literal]

/-! ### White space between tokens -/

theorem isSpace_indentation (depth : Nat) : ∀ c ∈ indentation depth, isSpace c = true := by
  intro c hc
  rcases List.mem_cons.1 hc with rfl | hc
  · rfl
  · rw [List.eq_of_mem_replicate hc]; rfl

theorem skipSpace_append {gap : List Char} (h : ∀ c ∈ gap, isSpace c = true) (text : List Char) :
    skipSpace (gap ++ text) = skipSpace text := List.dropWhile_append_of_pos h

theorem skipSpace_of_head {c : Char} (h : isSpace c = false) (text : List Char) :
    skipSpace (c :: text) = c :: text := by
  simp [skipSpace, h]

@[simp] theorem skipSpace_skipSpace (text : List Char) :
    skipSpace (skipSpace text) = skipSpace text :=
  List.dropWhile_idempotent _ _

/-! ### Spacing -/

/-- The fields of an object all of whose keys are texts. -/
def keyed (fs : List (String × Json)) : List (Option String × Json) :=
  fs.map fun (k, v) => (some k, v)

/-- Values with commas between them, each behind a gap. -/
def spacedItems (gap : List Char) (text : Json → List Char) : List Json → List Char
  | [] => []
  | [v] => gap ++ text v
  | v :: rest => gap ++ text v ++ ',' :: spacedItems gap text rest

/-- A field behind a gap, with space behind the colon. -/
def spacedField (gap space : List Char) (text : Json → List Char) (f : String × Json) :
    List Char :=
  gap ++ literal f.1 ++ ':' :: space ++ text f.2

/-- Fields with commas between them. -/
def spacedFields (gap space : List Char) (text : Json → List Char) :
    List (String × Json) → List Char
  | [] => []
  | [f] => spacedField gap space text f
  | f :: rest => spacedField gap space text f ++ ',' :: spacedFields gap space text rest

theorem spacedItems_cons_cons (gap : List Char) (text : Json → List Char) (v w : Json)
    (vs : List Json) : spacedItems gap text (v :: w :: vs)
      = gap ++ text v ++ ',' :: spacedItems gap text (w :: vs) := rfl

theorem spacedFields_cons_cons (gap space : List Char) (text : Json → List Char)
    (f g : String × Json) (fs : List (String × Json)) : spacedFields gap space text (f :: g :: fs)
      = spacedField gap space text f ++ ',' :: spacedFields gap space text (g :: fs) := rfl

/-- A way to set values: what stands between the tokens of arrays and objects is white space. -/
structure Spacing where
  /-- The text of a value at a depth of nesting. -/
  text : Nat → Json → List Char
  /-- What stands in front of an item, a field and a closing bracket at a depth. -/
  gap : Nat → List Char
  /-- What stands behind a colon. -/
  space : List Char
  isSpace_gap : ∀ depth, ∀ c ∈ gap depth, isSpace c = true
  isSpace_space : ∀ c ∈ space, isSpace c = true
  text_plain : ∀ depth v, (∀ vs, v ≠ array vs) → (∀ fs, v ≠ object fs) → text depth v = compact v
  text_nil : ∀ depth, text depth (array []) = ['[', ']']
  text_cons : ∀ depth v vs, text depth (array (v :: vs))
    = '[' :: spacedItems (gap (depth + 1)) (text (depth + 1)) (v :: vs) ++ (gap depth ++ [']'])
  text_noFields : ∀ depth, text depth (ofFields []) = ['\x7b', '\x7d']
  text_fields : ∀ depth f fs, text depth (ofFields (f :: fs))
    = '\x7b' :: spacedFields (gap (depth + 1)) space (text (depth + 1)) (f :: fs)
      ++ (gap depth ++ ['\x7d'])

theorem compactItems_eq (vs : List Json) : compactItems vs = spacedItems [] compact vs := by
  induction vs with
  | nil => rw [compactItems, spacedItems]
  | cons v vs ih =>
    cases vs with
    | nil => rw [compactItems, spacedItems, List.nil_append]
    | cons w ws =>
      rw [spacedItems_cons_cons, ← ih, compactItems]
      · simp
      · simp

theorem compactFields_eq (fs : List (String × Json)) :
    compactFields (keyed fs) = spacedFields [] [] compact fs := by
  induction fs with
  | nil => rw [keyed, List.map_nil, compactFields, spacedFields]
  | cons f fs ih =>
    obtain ⟨k, v⟩ := f
    cases fs with
    | nil => simp [keyed, compactFields, spacedFields, spacedField, keyLiteral_some]
    | cons g gs =>
      rw [spacedFields_cons_cons, ← ih]
      simp [keyed, compactFields, spacedField, keyLiteral_some]

theorem prettyItems_eq (depth : Nat) (vs : List Json) :
    prettyItems depth vs = spacedItems (indentation depth) (pretty depth) vs := by
  induction vs with
  | nil => rw [prettyItems, spacedItems]
  | cons v vs ih =>
    cases vs with
    | nil => rw [prettyItems, spacedItems]
    | cons w ws =>
      rw [spacedItems_cons_cons, ← ih, prettyItems]
      simp

theorem prettyFields_eq (depth : Nat) (fs : List (String × Json)) :
    prettyFields depth (keyed fs)
      = spacedFields (indentation depth) [' '] (pretty depth) fs := by
  induction fs with
  | nil => rw [keyed, List.map_nil, prettyFields, spacedFields]
  | cons f fs ih =>
    obtain ⟨k, v⟩ := f
    cases fs with
    | nil => simp [keyed, prettyFields, spacedFields, spacedField, keyLiteral_some]
    | cons g gs =>
      rw [spacedFields_cons_cons, ← ih]
      simp [keyed, prettyFields, spacedField, keyLiteral_some]

/-- Nothing between the tokens. -/
def compactSpacing : Spacing where
  text _ := compact
  gap _ := []
  space := []
  isSpace_gap := by simp
  isSpace_space := by simp
  text_plain _ _ _ _ := rfl
  text_nil _ := by rw [compact, compactItems]; rfl
  text_cons _ v vs := by rw [compact, compactItems_eq]; rfl
  text_noFields _ := by rw [ofFields, List.map_nil, compact, compactFields]; rfl
  text_fields _ f fs := by rw [ofFields, compact, ← keyed, compactFields_eq]; rfl

/-- One item or field a line. -/
def prettySpacing : Spacing where
  text := pretty
  gap := indentation
  space := [' ']
  isSpace_gap := isSpace_indentation
  isSpace_space := by simp [isSpace]
  text_plain depth v harray hobject := by
    cases v with
    | array vs => exact absurd rfl (harray vs)
    | object fs => exact absurd rfl (hobject fs)
    | _ => rw [pretty]
  text_nil depth := by rw [pretty]
  text_cons depth v vs := by
    rw [pretty, prettyItems_eq]
    · simp
    · simp
  text_noFields depth := by rw [ofFields, List.map_nil, pretty]
  text_fields depth f fs := by
    rw [ofFields, pretty, ← keyed, prettyFields_eq]
    · simp
    · simp


/-! ### Values -/

/-- A text in which a value has ended: no numeral in front of it would go on into it. -/
def endsValue : List Char → Bool
  | [] => true
  | c :: _ => c == ',' || c == ']' || c == '\x7d' || isSpace c

variable {sp : Spacing}

/-- The text of a value is read as that value, and reading stops right behind it. -/
def ReadsBack (sp : Spacing) (depth : Nat) (v : Json) : Prop :=
  ∀ fuel rest, (sp.text depth v).length ≤ fuel → endsValue rest →
    value? fuel (sp.text depth v ++ rest) = some (v, rest)

theorem endsValue_gap (sp : Spacing) (depth : Nat) {text : List Char} (h : endsValue text) :
    endsValue (sp.gap depth ++ text) := by
  cases hgap : sp.gap depth with
  | nil => exact h
  | cons c rest =>
    have hspace := sp.isSpace_gap depth c (hgap ▸ List.mem_cons_self)
    simp [endsValue, hspace]

theorem skipSpace_gap (sp : Spacing) (depth : Nat) (text : List Char) :
    skipSpace (sp.gap depth ++ text) = skipSpace text :=
  skipSpace_append (sp.isSpace_gap depth) text

theorem text_string (sp : Spacing) (depth : Nat) (s : String) :
    sp.text depth (string s) = literal s := by
  rw [sp.text_plain _ _ (by simp) (by simp), compact]

theorem readsBack_string (sp : Spacing) (depth : Nat) (s : String) :
    ReadsBack sp depth (string s) := by
  intro fuel rest hf _
  rw [text_string] at hf ⊢
  obtain ⟨fuel, rfl⟩ : ∃ n, fuel = n + 1 := ⟨fuel - 1, by simp [literal] at hf; omega⟩
  rw [literal_append, value?, skipSpace_of_head (by decide)]
  simp [stringTail?_literal]

/-- Items do not start with a closing bracket. -/
theorem head?_ne_of_items? {fuel : Nat} {text : List Char} {r : List Json × List Char}
    (h : items? fuel text = some r) : (skipSpace text).head? ≠ some ']' := by
  intro hhead
  obtain ⟨tail, htail⟩ := List.head?_eq_some_iff.1 hhead
  have hv : ∀ n, value? n text = none := by
    intro n
    cases n with
    | zero => rw [value?]
    | succ n =>
      rw [value?, htail]
      simp [number?, wholePart?, digits1?]
  cases fuel with
  | zero => simp [items?] at h
  | succ fuel => simp [items?, hv] at h

/-- Fields do not start with a closing brace. -/
theorem head?_ne_of_fields? {fuel : Nat} {text : List Char}
    {r : List (Option String × Json) × List Char} (h : fields? fuel text = some r) :
    (skipSpace text).head? ≠ some '\x7d' := by
  intro hhead
  obtain ⟨tail, htail⟩ := List.head?_eq_some_iff.1 hhead
  cases fuel with
  | zero => simp [fields?] at h
  | succ fuel => simp [fields?, htail] at h

/-- Items are read up to the bracket that closes them. -/
theorem items?_spacedItems {depth : Nat} {vs : List Json} (hne : vs ≠ [])
    (h : ∀ v ∈ vs, ReadsBack sp depth v) (outer fuel : Nat) (rest : List Char)
    (hf : (spacedItems (sp.gap depth) (sp.text depth) vs).length < fuel) :
    items? fuel (spacedItems (sp.gap depth) (sp.text depth) vs ++ (sp.gap outer ++ ']' :: rest))
      = some (vs, rest) := by
  induction vs generalizing fuel with
  | nil => exact absurd rfl hne
  | cons v vs ih =>
    have hv := h v (by simp)
    obtain ⟨fuel, rfl⟩ : ∃ n, fuel = n + 1 := ⟨fuel - 1, by omega⟩
    cases vs with
    | nil =>
      rw [spacedItems, List.length_append] at hf
      rw [spacedItems, List.append_assoc, items?_congr (skipSpace_gap ..), items?,
        hv fuel _ (by omega) (endsValue_gap sp outer rfl)]
      simp [skipSpace_gap, skipSpace_of_head (show isSpace ']' = false by decide)]
    | cons w ws =>
      rw [spacedItems_cons_cons, List.length_append, List.length_append, List.length_cons] at hf
      have hrest := ih (by simp) (fun x hx => h x (List.mem_cons_of_mem _ hx)) fuel (by omega)
      rw [spacedItems_cons_cons, List.append_assoc, List.append_assoc,
        items?_congr (skipSpace_gap ..), items?, List.cons_append, hv fuel _ (by omega) rfl]
      simp [skipSpace_of_head (show isSpace ',' = false by decide), hrest]

/-- The way of `fields?` over one field: the key from `start` on, the colon from `after` on, the
value from `tail` on. -/
structure ReadsField (fuel : Nat) (text : List Char) (key : String) (v : Json)
    (rest : List Char) : Prop where
  parts : ∃ start after tail, skipSpace text = '"' :: start ∧
    stringTail? .start start = some (some key, after) ∧ skipSpace after = ':' :: tail ∧
    value? fuel tail = some (v, rest)

theorem ReadsField.comma {fuel : Nat} {text rest more : List Char} {key : String} {v : Json}
    (h : ReadsField fuel text key v rest) (hrest : skipSpace rest = ',' :: more) :
    fields? (fuel + 1) text
      = (fields? fuel more).map fun (fs, rest) => ((some key, v) :: fs, rest) := by
  obtain ⟨start, after, tail, hstart, hafter, htail, hv⟩ := h.parts
  rw [fields?, hstart]
  simp only [hafter, htail, hv, hrest]

theorem ReadsField.brace {fuel : Nat} {text rest more : List Char} {key : String} {v : Json}
    (h : ReadsField fuel text key v rest) (hrest : skipSpace rest = '\x7d' :: more) :
    fields? (fuel + 1) text = some ([(some key, v)], more) := by
  obtain ⟨start, after, tail, hstart, hafter, htail, hv⟩ := h.parts
  rw [fields?, hstart]
  simp only [hafter, htail, hv, hrest]

theorem readsField_spacedField {depth fuel : Nat} {f : String × Json}
    (h : ReadsBack sp depth f.2) (hf : (sp.text depth f.2).length ≤ fuel) {rest : List Char}
    (he : endsValue rest) :
    ReadsField fuel (spacedField (sp.gap depth) sp.space (sp.text depth) f ++ rest) f.1 f.2
      rest := by
  have hstart : skipSpace (spacedField (sp.gap depth) sp.space (sp.text depth) f ++ rest) = '"' ::
      (f.1.toList.flatMap escapeChar ++ '"' :: ':' :: (sp.space ++ (sp.text depth f.2 ++ rest)))
      := by
    rw [spacedField, List.append_assoc, List.append_assoc, List.append_assoc, skipSpace_gap,
      literal_append]
    exact skipSpace_of_head (by decide) _
  have hvalue : value? fuel (sp.space ++ (sp.text depth f.2 ++ rest)) = some (f.2, rest) :=
    (value?_congr (skipSpace_append sp.isSpace_space _) fuel).trans (h fuel rest hf he)
  exact ⟨_, _, _, hstart, stringTail?_literal f.1 _, skipSpace_of_head (by decide) _, hvalue⟩

/-- Fields are read up to the brace that closes them. -/
theorem fields?_spacedFields {depth : Nat} {fs : List (String × Json)} (hne : fs ≠ [])
    (h : ∀ f ∈ fs, ReadsBack sp depth f.2) (outer fuel : Nat) (rest : List Char)
    (hf : (spacedFields (sp.gap depth) sp.space (sp.text depth) fs).length < fuel) :
    fields? fuel (spacedFields (sp.gap depth) sp.space (sp.text depth) fs
        ++ (sp.gap outer ++ '\x7d' :: rest))
      = some (keyed fs, rest) := by
  induction fs generalizing fuel with
  | nil => exact absurd rfl hne
  | cons f fs ih =>
    have hv : ReadsBack sp depth f.2 := h f (by simp)
    obtain ⟨fuel, rfl⟩ : ∃ n, fuel = n + 1 := ⟨fuel - 1, by omega⟩
    have hlength : (sp.text depth f.2).length
        ≤ (spacedField (sp.gap depth) sp.space (sp.text depth) f).length := by
      rw [spacedField, List.length_append]
      omega
    cases fs with
    | nil =>
      rw [spacedFields] at hf ⊢
      exact (readsField_spacedField hv (by omega) (endsValue_gap sp outer rfl)).brace
        ((skipSpace_gap ..).trans (skipSpace_of_head (by decide) _))
    | cons g gs =>
      have hrest := ih (by simp) fun x hx => h x (List.mem_cons_of_mem _ hx)
      rw [spacedFields_cons_cons, List.length_append, List.length_cons] at hf
      rw [spacedFields_cons_cons, List.append_assoc, List.cons_append,
        (readsField_spacedField hv (by omega) rfl).comma (skipSpace_of_head (by decide) _),
        hrest fuel (by omega)]
      rfl

/-- An array is read back if each of its items is. -/
theorem readsBack_array {depth : Nat} {vs : List Json}
    (h : ∀ v ∈ vs, ReadsBack sp (depth + 1) v) : ReadsBack sp depth (array vs) := by
  intro fuel rest hf _
  cases vs with
  | nil =>
    rw [sp.text_nil] at hf ⊢
    obtain ⟨fuel, rfl⟩ : ∃ n, fuel = n + 1 := ⟨fuel - 1, by simp at hf; omega⟩
    rfl
  | cons v vs =>
    rw [sp.text_cons, List.cons_append, List.length_cons, List.length_append, List.length_append,
      List.length_singleton] at hf
    obtain ⟨fuel, rfl⟩ : ∃ n, fuel = n + 1 := ⟨fuel - 1, by omega⟩
    have hitems := items?_spacedItems (by simp) h depth fuel rest (by omega)
    rw [sp.text_cons, value?, List.cons_append, List.cons_append, skipSpace_of_head (by decide),
      List.append_assoc, List.append_assoc, List.singleton_append]
    simp only
    split
    · next tail htail => exact absurd (by rw [htail]; rfl) (head?_ne_of_items? hitems)
    · rw [items?_congr (skipSpace_skipSpace _), hitems]
      rfl

/-- An object of named fields is read back if the value of each field is. -/
theorem readsBack_ofFields {depth : Nat} {fs : List (String × Json)}
    (h : ∀ f ∈ fs, ReadsBack sp (depth + 1) f.2) : ReadsBack sp depth (ofFields fs) := by
  intro fuel rest hf _
  cases fs with
  | nil =>
    rw [sp.text_noFields] at hf ⊢
    obtain ⟨fuel, rfl⟩ : ∃ n, fuel = n + 1 := ⟨fuel - 1, by simp at hf; omega⟩
    rfl
  | cons f fs =>
    rw [sp.text_fields, List.cons_append, List.length_cons, List.length_append,
      List.length_append, List.length_singleton] at hf
    obtain ⟨fuel, rfl⟩ : ∃ n, fuel = n + 1 := ⟨fuel - 1, by omega⟩
    have hfields := fields?_spacedFields (by simp) h depth fuel rest (by omega)
    rw [sp.text_fields, value?, List.cons_append, List.cons_append,
      skipSpace_of_head (by decide), List.append_assoc, List.append_assoc, List.singleton_append]
    simp only
    split
    · next tail htail => exact absurd (by rw [htail]; rfl) (head?_ne_of_fields? hfields)
    · rw [fields?_congr (skipSpace_skipSpace _), hfields]
      rfl

/-- The text of a value is read as that value. -/
theorem parse?_text {v : Json} (h : ReadsBack sp 0 v) :
    parse? (String.ofList (sp.text 0 v)) = some v := by
  have hread := h (2 * (sp.text 0 v).length + 1) [] (by omega) rfl
  rw [List.append_nil] at hread
  simp [parse?, hread, skipSpace]

/-! ### Types -/

/-- A value is read back from its JSON, however that is set. -/
structure RoundTrips {α : Type} [Writable α] [Readable α] (a : α) : Prop where
  text : ∀ sp depth, ReadsBack sp depth (toJson a)
  value : ofJson? (toJson a) = some a

section

variable {α : Type} [Writable α] [Readable α]

theorem RoundTrips.readText?_text {a : α} (h : RoundTrips a) (sp : Spacing) :
    readText? α (String.ofList (sp.text 0 (toJson a))) = some a := by
  rw [readText?, parse?_text (h.text sp 0), Option.bind_some, h.value]

theorem RoundTrips.readText?_toPrettyText {a : α} (h : RoundTrips a) :
    readText? α (toPrettyText (toJson a)) = some a := h.readText?_text prettySpacing

theorem RoundTrips.readText?_toText {a : α} (h : RoundTrips a) :
    readText? α (toText (toJson a)) = some a := h.readText?_text compactSpacing

theorem roundTrips_string (s : String) : RoundTrips s :=
  ⟨fun sp depth => readsBack_string sp depth s, rfl⟩

theorem roundTrips_list {as : List α} (h : ∀ a ∈ as, RoundTrips a) : RoundTrips as where
  text sp depth := readsBack_array fun v hv => by
    obtain ⟨a, ha, rfl⟩ := List.mem_map.1 hv
    exact (h a ha).text sp _
  value := by
    change (as.map toJson).mapM ofJson? = some as
    induction as with
    | nil => rfl
    | cons a as ih =>
      rw [List.map_cons, List.mapM_cons, (h a (by simp)).value,
        ih fun b hb => h b (List.mem_cons_of_mem _ hb)]
      rfl

/-! ### Records -/

/-- The fields of an object, all of them known and each there once, are read as they stand. -/
theorem record?_ofFields {names : List String} {fs : List (String × Json)}
    (hknown : fs.all (names.contains ·.1) = true) (honce : namesOnce fs = true) :
    record? names (ofFields fs) = some ⟨false, fs⟩ := by
  have hkeyed : (fs.map fun f => (some f.1, f.2)).mapM (fun f => f.1.map (·, f.2))
      = some fs := by
    clear hknown honce
    induction fs with
    | nil => rfl
    | cons f fs ih => rw [List.map_cons, List.mapM_cons, ih]; rfl
  have hfilter : (fs.filter fun f => names.contains f.1) = fs :=
    List.filter_eq_self.2 (List.all_eq_true.1 hknown)
  have hknow : (if namesOnce (fs.filter fun f => names.contains f.1) then
      some (⟨false, fs.filter fun f => names.contains f.1⟩ : Record) else none)
        = some ⟨false, fs⟩ := by
    rw [hfilter, if_pos honce]
  exact (congrArg (Option.bind · _) hkeyed).trans hknow

/-- A record is read back if its fields are and give the record. -/
theorem roundTrips_of_fields {a : α} {names : List String} {fs : List (String × Json)}
    {read : Record → Option α} (hjson : toJson a = ofFields fs)
    (hread : ∀ v, ofJson? v = (record? names v).bind read)
    (hknown : fs.all (names.contains ·.1) = true) (honce : namesOnce fs = true)
    (htext : ∀ f ∈ fs, ∀ sp depth, ReadsBack sp depth f.2) (hvalue : read ⟨false, fs⟩ = some a) :
    RoundTrips a where
  text sp depth := by
    rw [hjson]
    exact readsBack_ofFields fun f hf => htext f hf sp _
  value := by rw [hread, hjson, record?_ofFields hknown honce, Option.bind_some, hvalue]

end

theorem roundTrips_strings (ss : List String) : RoundTrips ss :=
  roundTrips_list fun s _ => roundTrips_string s

/-- An annotation that is written as JSON is read as the same annotation. -/
theorem roundTrips_annotation (a : Annotation) : RoundTrips a := by
  have hkeywords := roundTrips_strings a.keywords
  have htext := roundTrips_string
  refine roundTrips_of_fields rfl (fun _ => rfl) rfl rfl ?_ ?_
  · simp only [List.forall_mem_cons]
    exact ⟨(htext _).text, (htext _).text, (htext _).text, (htext _).text, hkeywords.text,
      (htext _).text, (htext _).text, List.forall_mem_nil _⟩
  · simp [Record.textOrEmpty, Record.fieldOr, List.lookup_cons, hkeywords.value, (htext _).value]

end Marginalia.Json
