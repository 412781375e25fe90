import Mathlib.Data.List.Pairwise
import Marginalia.Proofs.Header.Names
import Marginalia.Proofs.Segment

/-!
What the units of a text cover. The search reads every line that is not behind the first line of a
unit, so the scopes at any line can be computed from the units alone, and a line that is read starts
a unit exactly if it opens one in those scopes. Hence a definition line that no unit covers is a
constructor: nothing else is passed over.
-/

namespace Marginalia

open Text

variable {o : SegmentOptions} {file : String} {l : Language}

/-- The search reads the line: it is not behind the first line of any of the units. -/
def isRead (units : List CodeUnit) (i : Nat) : Bool :=
  units.all fun u => i ≤ u.range.start || u.range.stop ≤ i

/-- The scopes behind lines, numbered from `index` on, of which only some are read. -/
def scopesBehind (l : Language) (read : Nat → Bool) (scopes : List OpenScope) (index : Nat) :
    List Line → List OpenScope
  | [] => scopes
  | line :: rest =>
    scopesBehind l read (if read index then (enterLine l scopes line).1 else scopes) (index + 1)
      rest

/-- The scope of a definition on a line, among units that have been found: the one that the line
names, or else the innermost one that is open there. -/
def scopeAt (l : Language) (lines : List Line) (units : List CodeUnit) (i : Nat) (h : Header) :
    Option String :=
  scopeOf h
    (closeScopes l (lines.getD i []) (scopesBehind l (isRead units) [] 0 (lines.take i)))

/-! ### The length of a unit -/

theorem bracedLength_le {l : Language} {lookahead passed depth n : Nat} {lines : List Line}
    (h : bracedLength l lookahead passed depth lines = some n) : n ≤ passed + lines.length := by
  induction lines generalizing passed depth with
  | nil => simp [bracedLength] at h
  | cons line rest ih =>
    rw [bracedLength] at h
    rw [List.length_cons]
    split at h
    · cases h
    · split at h
      · obtain rfl := Option.some.inj h
        omega
      · cases h
      · have := ih h
        omega

/-- A unit ends with the lines at the latest. -/
theorem unitLength_le (o : SegmentOptions) (l : Language) (line : Line) (rest : List Line) :
    unitLength o l line rest ≤ (line :: rest).length := by
  have hindented : 1 + indentedLength (indentWidth line) rest ≤ (line :: rest).length := by
    rw [List.length_cons, Nat.add_comm]
    exact Nat.succ_le_succ (indentedLength_le _ rest)
  unfold unitLength
  split
  · cases hbraced : bracedLength l o.braceLookahead 0 0 (line :: rest) with
    | none => exact hindented
    | some n => exact (bracedLength_le hbraced).trans_eq (Nat.zero_add _)
  · exact hindented

/-- Where no braces can end a unit, its indentation does. -/
theorem unitLength_python (line : Line) (rest : List Line) :
    unitLength o .python line rest = 1 + indentedLength (indentWidth line) rest := by
  simp [unitLength, Language.usesBraces]

theorem length_take_unitLength (line : Line) (rest : List Line) :
    ((line :: rest).take (unitLength o l line rest)).length = unitLength o l line rest :=
  List.length_take_of_le (unitLength_le o l line rest)

/-! ### What a line opens -/

theorem enterLine_of_header {scopes : List OpenScope} {line : Line} {h : Header}
    (hh : Header.ofLine? l line = some h) :
    (enterLine l scopes line).2
      = if isConstructor l h (scopeOf h (closeScopes l line scopes)) then none
        else some (h, scopeOf h (closeScopes l line scopes)) := by
  obtain ⟨hblank, hcomment⟩ := not_opensNothing hh
  simp [enterLine, hblank, hcomment, hh]

/-- What a line opens is its own definition, unless that is a constructor. -/
theorem enterLine_eq_some_iff {scopes : List OpenScope} {line : Line} {h : Header}
    {scope : Option String} :
    (enterLine l scopes line).2 = some (h, scope)
      ↔ Header.ofLine? l line = some h ∧ scope = scopeOf h (closeScopes l line scopes)
        ∧ isConstructor l h scope = false := by
  constructor
  · intro henter
    have hh := header_of_enterLine (Prod.ext rfl henter)
    rw [enterLine_of_header hh] at henter
    split at henter
    · cases henter
    · next hcode =>
      obtain ⟨-, rfl⟩ := Prod.mk.inj (Option.some.inj henter)
      exact ⟨hh, rfl, by simpa using hcode⟩
  · rintro ⟨hh, rfl, hcode⟩
    rw [enterLine_of_header hh, hcode]
    rfl

/-- In a file with a name, every definition that is opened becomes a unit. -/
theorem exists_unitAt? (hfile : isBlankString file = false) {line : Line} {h : Header}
    (hh : Header.ofLine? l line = some h) (scope : Option String) (index : Nat) {lines : List Line}
    (hlines : lines ≠ []) : ∃ u, unitAt? o file l h scope index lines = some u := by
  have hempty : lines.isEmpty = false := by simpa using hlines
  rw [unitAt?_eq, hfile, Header.isVisible_of_ofLine? hh, hempty]
  exact ⟨_, rfl⟩

/-! ### The units of a walk -/

theorem isRead_of_le_start {units : List CodeUnit} {i : Nat}
    (h : ∀ u ∈ units, i ≤ u.range.start) : isRead units i = true :=
  List.all_eq_true.2 fun u hu => by simp [h u hu]

/-- No unit reaches into another one. -/
theorem pairwise_stop_unitsFrom (scopes : List OpenScope) (index covered : Nat)
    (lines : List Line) :
    (unitsFrom o file l scopes index covered lines).Pairwise
      fun u v => u.range.stop ≤ v.range.start := by
  induction lines generalizing scopes index covered with
  | nil => simp [unitsFrom]
  | cons line rest ih =>
    cases covered with
    | succ covered => exact ih scopes (index + 1) covered
    | zero =>
      rw [unitsFrom_cons]
      cases enterLine l scopes line with
      | mk scopes' opened =>
        cases opened with
        | none => exact ih scopes' (index + 1) 0
        | some opened =>
          refine List.pairwise_append.2 ⟨?_, ih _ _ _, fun u hu v hv => ?_⟩
          · cases unitAt? o file l opened.1 opened.2 index
              ((line :: rest).take (unitLength o l line rest)) <;> simp
          · obtain ⟨-, hrange⟩ := unitAt?_eq_some (Option.mem_toList.1 hu)
            have hstart := le_start_of_mem_unitsFrom v hv
            have hpos := unitLength_pos o l line rest
            rw [hrange, length_take_unitLength]
            show index + unitLength o l line rest ≤ v.range.start
            omega

/-- The unit that a line opens in a file with a name, if it opens one. -/
def openedUnit? (o : SegmentOptions) (file : String) (l : Language) (scopes : List OpenScope)
    (index : Nat) (line : Line) (rest : List Line) : Option CodeUnit :=
  (enterLine l scopes line).2.bind fun (h, scope) =>
    unitAt? o file l h scope index ((line :: rest).take (unitLength o l line rest))

/-- One step of the walk: the unit that the line opens, and the lines behind that unit. -/
theorem unitsFrom_step (hfile : isBlankString file = false) (scopes : List OpenScope)
    (index : Nat) (line : Line) (rest : List Line) :
    ∃ covered, unitsFrom o file l scopes index 0 (line :: rest)
        = (openedUnit? o file l scopes index line rest).toList
          ++ unitsFrom o file l (enterLine l scopes line).1 (index + 1) covered rest
      ∧ ∀ i, index < i → isRead (openedUnit? o file l scopes index line rest).toList i
          = decide (index + 1 + covered ≤ i) := by
  rw [unitsFrom_cons, openedUnit?]
  cases henter : enterLine l scopes line with
  | mk scopes' opened =>
    cases opened with
    | none => exact ⟨0, rfl, fun i hi => by simp [isRead, Nat.succ_le_of_lt hi]⟩
    | some opened =>
      refine ⟨unitLength o l line rest - 1, rfl, fun i hi => ?_⟩
      have hpos := unitLength_pos o l line rest
      have hne : (line :: rest).take (unitLength o l line rest) ≠ [] :=
        List.ne_nil_of_length_pos (by rwa [length_take_unitLength])
      obtain ⟨u, hu⟩ :=
        exists_unitAt? (o := o) hfile (header_of_enterLine henter) opened.2 index hne
      obtain ⟨-, hrange⟩ := unitAt?_eq_some hu
      rw [length_take_unitLength] at hrange
      have hbehind : ¬ i ≤ index := by omega
      have hstop : index + 1 + (unitLength o l line rest - 1)
          = index + unitLength o l line rest := by
        omega
      simp [hu, isRead, hrange, hbehind, hstop]

/-- A line that is read starts a unit exactly if it opens one in the scopes that the lines read
above it leave. -/
theorem mem_unitsFrom_iff (hfile : isBlankString file = false) {read : Nat → Bool}
    {scopes : List OpenScope} {index covered : Nat} {lines : List Line}
    (hread : ∀ i, index ≤ i → read i
      = (decide (index + covered ≤ i) && isRead (unitsFrom o file l scopes index covered lines) i))
    {k : Nat} {line : Line} (hk : read (index + k) = true) (hline : lines[k]? = some line)
    (u : CodeUnit) :
    u ∈ unitsFrom o file l scopes index covered lines ∧ u.range.start = index + k
      ↔ openedUnit? o file l (scopesBehind l read scopes index (lines.take k)) (index + k) line
          (lines.drop (k + 1)) = some u := by
  induction lines generalizing scopes index covered k with
  | nil => simp at hline
  | cons first rest ih =>
    cases covered with
    | succ covered =>
      -- a line that an earlier unit covers is passed over
      have hskip : read index = false := by
        rw [hread index (Nat.le_refl _), decide_eq_false (by omega), Bool.false_and]
      cases k with
      | zero => rw [Nat.add_zero, hskip] at hk; cases hk
      | succ k =>
        have hreadRest : ∀ i, index + 1 ≤ i → read i = (decide (index + 1 + covered ≤ i)
            && isRead (unitsFrom o file l scopes (index + 1) covered rest) i) := by
          intro i hi
          rw [hread i (by omega), Nat.add_right_comm]
          rfl
        have hrest := ih hreadRest (k := k) (by rwa [Nat.add_right_comm]) hline
        rw [Nat.add_right_comm] at hrest
        rw [List.take_succ_cons, scopesBehind, hskip, if_neg Bool.false_ne_true]
        exact hrest
    | zero =>
      obtain ⟨covered, hunits, hbehind⟩ :=
        unitsFrom_step (o := o) (l := l) hfile scopes index first rest
      have hlater : ∀ v ∈ unitsFrom o file l (enterLine l scopes first).1 (index + 1) covered rest,
          index + 1 + covered ≤ v.range.start := le_start_of_mem_unitsFrom
      have hfirst : ∀ v ∈ openedUnit? o file l scopes index first rest, v.range.start = index := by
        intro v hv
        obtain ⟨opened, -, hv⟩ := Option.bind_eq_some_iff.1 hv
        rw [(unitAt?_eq_some hv).2]
      cases k with
      | zero =>
        obtain rfl : first = line := by simpa using hline
        rw [hunits, List.mem_append, Option.mem_toList]
        constructor
        · rintro ⟨hu | hu, hstart⟩
          · exact hu
          · have := hlater u hu
            omega
        · intro hu
          exact ⟨.inl hu, hfirst u hu⟩
      | succ k =>
        have hopen : read index = true := by
          rw [hread index (Nat.le_refl _), decide_eq_true (Nat.le_of_eq (Nat.add_zero index)),
            Bool.true_and]
          exact isRead_of_le_start le_start_of_mem_unitsFrom
        have hreadRest : ∀ i, index + 1 ≤ i → read i = (decide (index + 1 + covered ≤ i)
            && isRead (unitsFrom o file l (enterLine l scopes first).1 (index + 1) covered rest)
              i) := by
          intro i hi
          rw [hread i (by omega), hunits, isRead, List.all_append]
          rw [← isRead, ← isRead, hbehind i (by omega), decide_eq_true (by omega), Bool.true_and]
        have hrest := ih hreadRest (k := k) (by rwa [Nat.add_right_comm]) hline
        rw [Nat.add_right_comm] at hrest
        rw [List.take_succ_cons, scopesBehind, hopen, if_pos rfl, hunits, List.mem_append,
          Option.mem_toList]
        refine Iff.trans (and_congr_left fun hstart => or_iff_right fun hu => ?_) hrest
        have := hfirst u hu
        omega

/-! ### The units of a text -/

/-- The search reads the first line of every unit. -/
theorem isRead_start {scopes : List OpenScope} {index covered : Nat} {lines : List Line}
    {u : CodeUnit} (hu : u ∈ unitsFrom o file l scopes index covered lines) :
    isRead (unitsFrom o file l scopes index covered lines) u.range.start = true := by
  have hapart := List.Pairwise.forall_of_forall_of_flip
    (l := unitsFrom o file l scopes index covered lines)
    (R := fun u v => u.range.start ≤ v.range.start ∨ v.range.stop ≤ u.range.start)
    (fun _ _ => .inl (Nat.le_refl _))
    ((pairwise_start_unitsFrom scopes index covered lines).imp fun h => .inl (Nat.le_of_lt h))
    ((pairwise_stop_unitsFrom scopes index covered lines).imp .inr)
  refine List.all_eq_true.2 fun v hv => ?_
  simpa using hapart hu hv

/-- The unit is what a definition with the header and in the scope is made into. -/
structure CodeUnit.IsMadeOf (u : CodeUnit) (o : SegmentOptions) (file : String) (l : Language)
    (lines : List Line) (h : Header) (scope : Option String) : Prop where
  id : u.id = .compose file u.scope h.name (u.range.start + 1)
  scope : u.scope = scope.filter fun s => !isBlankString s
  name : u.name = h.name
  params : u.params = trimmed h.params
  body : u.body.toList = joinLines ((lines.drop u.range.start).take u.range.size)
  callsOut : u.callsOut = callsOfBody u.body u.name l o.skipPrivateCalls

/-- The parameters of a unit are read off its signature. -/
theorem CodeUnit.params_eq {u : CodeUnit} {params : String}
    (h : u.signature = u.name ++ "(" ++ params ++ ")") : u.params = params := by
  have hfront : dropFront? (u.name.toList ++ ['(']) u.signature.toList
      = some (params.toList ++ [')']) := by
    rw [dropFront?_eq_some_iff, h]
    simp
  have hend : dropEnd? [')'] (params.toList ++ [')']) = some params.toList := by
    have hreverse : dropFront? [')'].reverse (params.toList ++ [')']).reverse
        = some params.toList.reverse := by
      rw [dropFront?_eq_some_iff]
      simp
    rw [dropEnd?, hreverse, Option.map_some, List.reverse_reverse]
  rw [CodeUnit.params, hfront, Option.bind_some, hend]
  exact String.ofList_toList

theorem isMadeOf_of_unitAt? {h : Header} {scope : Option String} {index n : Nat}
    {lines : List Line} {u : CodeUnit}
    (hu : unitAt? o file l h scope index ((lines.drop index).take n) = some u) :
    u.IsMadeOf o file l lines h scope := by
  rw [unitAt?_eq] at hu
  split at hu
  · cases hu
  · obtain rfl := Option.some.inj hu
    exact {
      id := rfl
      scope := rfl
      name := rfl
      params := CodeUnit.params_eq rfl
      body := by
        rw [String.toList_ofList, LineRange.size, Nat.add_sub_cancel_left]
        exact congrArg joinLines (List.take_eq_take_iff.2 (by simp))
      callsOut := rfl }

/-- A line of a text that is read starts a unit exactly if it has a definition and that is no
constructor. -/
theorem mem_segment_iff (hfile : isBlankString file = false) (text : String) {i : Nat}
    (hread : isRead (segment o text file l) i = true) {line : Line}
    (hline : (linesOf text)[i]? = some line) (u : CodeUnit) :
    u ∈ segment o text file l ∧ u.range.start = i
      ↔ ∃ h, Header.ofLine? l line = some h
        ∧ isConstructor l h (scopeAt l (linesOf text) (segment o text file l) i h) = false
        ∧ unitAt? o file l h (scopeAt l (linesOf text) (segment o text file l) i h) i
          (((linesOf text).drop i).take (unitLength o l line ((linesOf text).drop (i + 1))))
          = some u := by
  have hdrop : line :: (linesOf text).drop (i + 1) = (linesOf text).drop i := by
    obtain ⟨hi, rfl⟩ := List.getElem?_eq_some_iff.1 hline
    exact List.getElem_cons_drop hi
  have hget : (linesOf text).getD i [] = line := by rw [List.getD_eq_getElem?_getD, hline]; rfl
  have hall : ∀ j, 0 ≤ j → isRead (segment o text file l) j
      = (decide (0 + 0 ≤ j) && isRead (unitsFrom o file l [] 0 0 (linesOf text)) j) :=
    fun j _ => by simp [segment]
  have hwalk := mem_unitsFrom_iff hfile hall (by rwa [Nat.zero_add]) hline u
  rw [Nat.zero_add] at hwalk
  rw [segment, hwalk, openedUnit?, Option.bind_eq_some_iff, ← segment, ← hdrop]
  simp only [Prod.exists, enterLine_eq_some_iff, scopeAt, hget]
  refine exists_congr fun h => ⟨?_, fun ⟨hh, hcode, hunit⟩ => ⟨_, ⟨hh, rfl, hcode⟩, hunit⟩⟩
  rintro ⟨_, ⟨hh, rfl, hcode⟩, hunit⟩
  exact ⟨hh, hcode, hunit⟩

theorem range_of_unitAt? {h : Header} {scope : Option String} {index n : Nat} {lines : List Line}
    (hindex : index < lines.length) (hn : 0 < n) {u : CodeUnit}
    (hu : unitAt? o file l h scope index ((lines.drop index).take n) = some u) :
    u.range.start < u.range.stop ∧ u.range.stop ≤ lines.length := by
  rw [(unitAt?_eq_some hu).2, List.length_take, List.length_drop]
  constructor <;> dsimp only <;> omega

/-- A definition line that is read and is no constructor is in a unit. -/
theorem exists_contains_of_header (hfile : isBlankString file = false) (text : String) {i : Nat}
    (hread : isRead (segment o text file l) i = true) {line : Line}
    (hline : (linesOf text)[i]? = some line) {h : Header} (hh : Header.ofLine? l line = some h)
    (hcode : isConstructor l h (scopeAt l (linesOf text) (segment o text file l) i h) = false) :
    ∃ u ∈ segment o text file l, u.range.contains i = true := by
  have hindex := (List.getElem?_eq_some_iff.1 hline).1
  have hpos := unitLength_pos o l line ((linesOf text).drop (i + 1))
  have hlines : ((linesOf text).drop i).take
      (unitLength o l line ((linesOf text).drop (i + 1))) ≠ [] := by
    refine List.ne_nil_of_length_pos ?_
    rw [List.length_take, List.length_drop]
    omega
  obtain ⟨u, hunit⟩ := exists_unitAt? (o := o) hfile hh
    (scopeAt l (linesOf text) (segment o text file l) i h) i hlines
  obtain ⟨hu, hstart⟩ := (mem_segment_iff hfile text hread hline u).2 ⟨h, hh, hcode, hunit⟩
  have hstop := (range_of_unitAt? hindex hpos hunit).1
  exact ⟨u, hu, (LineRange.contains_iff _ _).2 ⟨Nat.le_of_eq hstart, hstart ▸ hstop⟩⟩

/-- Segmentation finds exactly the definitions of a text. Its units stand one below the other, each
is made of the lines that its definition line opens, and a definition line outside of all units has
the constructor of the type around it. -/
theorem segment_covers_definitions (o : SegmentOptions) (text : String) {file : String}
    (hfile : isBlankString file = false) (l : Language) :
    ((segment o text file l).Pairwise fun u v => u.range.stop ≤ v.range.start)
      ∧ (∀ u ∈ segment o text file l,
        u.range.start < u.range.stop ∧ u.range.stop ≤ (linesOf text).length
        ∧ ∃ line h, (linesOf text)[u.range.start]? = some line
          ∧ Header.ofLine? l line = some h
          ∧ isConstructor l h (scopeAt l (linesOf text) (segment o text file l) u.range.start h)
            = false
          ∧ u.IsMadeOf o file l (linesOf text) h
            (scopeAt l (linesOf text) (segment o text file l) u.range.start h))
      ∧ ∀ i line h, (linesOf text)[i]? = some line → Header.ofLine? l line = some h →
        (∀ u ∈ segment o text file l, u.range.contains i = false) →
        (l = .java ∨ l = .cpp)
          ∧ scopeAt l (linesOf text) (segment o text file l) i h = some h.name := by
  refine ⟨pairwise_stop_unitsFrom [] 0 0 _, fun u hu => ?_, fun i line h hline hh hout => ?_⟩
  · obtain ⟨i, line, -, -, hstart, hline, -⟩ := start_of_mem_unitsFrom hu
    rw [Nat.zero_add] at hstart
    subst hstart
    obtain ⟨h, hh, hcode, hunit⟩ :=
      (mem_segment_iff hfile text (isRead_start hu) hline u).1 ⟨hu, rfl⟩
    have hindex := (List.getElem?_eq_some_iff.1 hline).1
    obtain ⟨hpos, hend⟩ := range_of_unitAt? hindex (unitLength_pos _ _ _ _) hunit
    exact ⟨hpos, hend, line, h, hline, hh, hcode, isMadeOf_of_unitAt? hunit⟩
  · have hread : isRead (segment o text file l) i = true := List.all_eq_true.2 fun u hu => by
      have := hout u hu
      simp only [LineRange.contains, Bool.and_eq_false_iff, decide_eq_false_iff_not] at this
      rw [Bool.or_eq_true, decide_eq_true_iff, decide_eq_true_iff]
      omega
    have hcode : isConstructor l h (scopeAt l (linesOf text) (segment o text file l) i h)
        = true := by
      refine Bool.of_not_eq_false fun hcode => ?_
      obtain ⟨u, hu, hin⟩ := exists_contains_of_header hfile text hread hline hh hcode
      exact Bool.false_ne_true ((hout u hu).symm.trans hin)
    simpa [isConstructor] using hcode

/-- A class whose constructor stands on the second of its lines. -/
def classText : String :=
  "class Queue \x7b\n  explicit Queue(int size) \x7b\n  \x7d\n  int head() \x7b\n  \x7d\n\x7d;\n"

/-- The constructor of a class is outside of its units. -/
theorem scopeAt_of_classText :
    (segment {} classText "queue.cpp" .cpp).map (·.range) = [⟨3, 5⟩]
      ∧ scopeAt .cpp (linesOf classText) (segment {} classText "queue.cpp" .cpp) 1
          ⟨"Queue", "int size", none⟩ = some "Queue" :=
  ⟨by decide +kernel,
    ((segment_covers_definitions {} classText
        (show isBlankString "queue.cpp" = false by decide) .cpp).2.2 1
      "  explicit Queue(int size) \x7b".toList _ (by decide +kernel) (by decide +kernel)
      (by decide +kernel)).2⟩

end Marginalia
