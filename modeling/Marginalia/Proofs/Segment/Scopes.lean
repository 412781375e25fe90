import Mathlib.Order.Bounds.Basic
import Marginalia.Proofs.Segment.Borrowing

/-!
The class around a Python unit. The walk keeps a stack of open classes and closes some of them at
every line that it reads. What is on the stack at a line can be said without it: the class lines
above that stand outside of all units and have only deeper code behind them, down to this line. The
innermost of them is the scope of a unit.
-/

namespace Marginalia

open Text Pattern Shape

variable {o : SegmentOptions} {file : String} {lines : List Line} {read : Nat → Bool}

/-- The line holds code: it is neither blank nor a comment. -/
def isCode (line : Line) : Bool := !allBlank line && !isCommentLine .python line

/-- The class that line `j` opens holds line `i`, among units that have been found. -/
structure HoldsLine (lines : List Line) (units : List CodeUnit) (j i : Nat) : Prop where
  above : j < i
  outside : ∀ u ∈ units, u.range.contains j = false
  opens : (scopeOfLine? .python (lines.getD j [])).isSome = true
  no_header : Header.ofLine? .python (lines.getD j []) = none
  deeper : ∀ k, j < k → k ≤ i → isCode (lines.getD k []) = true →
    indentWidth (lines.getD j []) < indentWidth (lines.getD k [])

/-! ### Class lines -/

/-- A class line tells the name of the class, and the name can be seen. -/
theorem exists_of_pythonClass {line : Line} {found : Captures}
    (h : pythonClass.captures? line = some found) :
    ∃ name, found.get? 1 = some name ∧ IsVisible name ∧ name ⊆ line := by
  obtain ⟨t, gs, hfront, htakes, hget⟩ := exists_takes_of_captures? h
  cases htakes with
  | seq _ hrest =>
    cases hrest with
    | seq _ hname =>
      cases hname with
      | group hname =>
        refine ⟨_, by rw [hget]; rfl, isVisible_of_takes_ident hname, fun c hc => ?_⟩
        exact hfront.subset (by simp [hc])

/-- A line that opens a class holds code, and the name of the class can be seen. -/
theorem spec_of_scopeOfLine? {line : Line} {name : String}
    (h : scopeOfLine? .python line = some name) :
    isCode line = true ∧ isBlankString name = false := by
  unfold scopeOfLine? at h
  split at h
  · cases h
  · next hcomment =>
    obtain ⟨found, hfound, rfl⟩ := Option.map_eq_some_iff.1 h
    obtain ⟨name, hname, hvisible, hline⟩ := exists_of_pythonClass hfound
    obtain ⟨c, hc, hblank⟩ := hvisible
    have hseen : allBlank line = false := by
      rw [allBlank, List.all_eq_false]
      exact ⟨c, hline hc, by simp [hblank]⟩
    have hget : found.get 1 = String.ofList name := by rw [Captures.get, hname]; rfl
    rw [Bool.or_eq_true, not_or] at hcomment
    refine ⟨by simp [isCode, hseen, hcomment.1], ?_⟩
    rw [hget]
    exact isBlankString_of_isVisible ⟨c, hc, hblank⟩

theorem isCode_of_header {line : Line} {h : Header} (hh : Header.ofLine? .python line = some h) :
    isCode line = true := by
  obtain ⟨hblank, hcomment⟩ := not_opensNothing hh
  simp [isCode, hblank, hcomment]

/-- A Python definition names no scope of its own. -/
theorem owner_eq_none {line : Line} {h : Header} (hh : Header.ofLine? .python line = some h) :
    h.owner = none := by
  unfold Header.ofLine? at hh
  split at hh
  · cases hh
  · obtain ⟨hshape, -⟩ := Option.filter_eq_some_iff.1 hh
    obtain ⟨found, -, rfl⟩ := Option.map_eq_some_iff.1 hshape
    rfl

/-! ### The stack of open classes -/

/-- What the class line `j` puts on the stack. -/
def openedAt (lines : List Line) (j : Nat) : OpenScope :=
  ⟨indentWidth (lines.getD j []), (scopeOfLine? .python (lines.getD j [])).getD ""⟩

/-- The class line `j` has been read and is still open in front of line `k`: the code that has been
read in between is deeper. -/
structure IsOpenAt (lines : List Line) (read : Nat → Bool) (k j : Nat) : Prop where
  above : j < k
  is_read : read j = true
  opens : (scopeOfLine? .python (lines.getD j [])).isSome = true
  no_header : Header.ofLine? .python (lines.getD j []) = none
  deeper : ∀ m, j < m → m < k → read m = true → isCode (lines.getD m []) = true →
    indentWidth (lines.getD j []) < indentWidth (lines.getD m [])

/-- The stack holds exactly the open class lines, the innermost first. -/
structure IsStackAt (lines : List Line) (read : Nat → Bool) (k : Nat) (scopes : List OpenScope)
    (js : List Nat) : Prop where
  scopes_eq : scopes = js.map (openedAt lines)
  descending : js.Pairwise (· > ·)
  mem_iff : ∀ j, j ∈ js ↔ IsOpenAt lines read k j

theorem IsOpenAt.code {k j : Nat} (h : IsOpenAt lines read k j) :
    isCode (lines.getD j []) = true := by
  obtain ⟨name, hname⟩ := Option.isSome_iff_exists.1 h.opens
  exact (spec_of_scopeOfLine? hname).1

/-- Of the open class lines one line further down, all but the line itself were open before and have
not been closed by it. -/
theorem isOpenAt_succ_iff {k j : Nat} :
    IsOpenAt lines read (k + 1) j
      ↔ (IsOpenAt lines read k j ∧ (read k = true → isCode (lines.getD k []) = true →
          indentWidth (lines.getD j []) < indentWidth (lines.getD k [])))
        ∨ j = k ∧ read k = true ∧ (scopeOfLine? .python (lines.getD k [])).isSome = true
          ∧ Header.ofLine? .python (lines.getD k []) = none := by
  constructor
  · intro h
    rcases Nat.lt_or_ge j k with hlt | hge
    · refine .inl ⟨⟨hlt, h.is_read, h.opens, h.no_header, fun m hm hmk => ?_⟩, ?_⟩
      · exact h.deeper m hm (by omega)
      · exact h.deeper k hlt (by omega)
    · obtain rfl : j = k := by
        have := h.above
        omega
      exact .inr ⟨rfl, h.is_read, h.opens, h.no_header⟩
  · rintro (⟨h, hk⟩ | ⟨rfl, hread, hopens, hheader⟩)
    · refine ⟨by have := h.above; omega, h.is_read, h.opens, h.no_header, fun m hm hmk => ?_⟩
      rcases Nat.lt_or_ge m k with hlt | hge
      · exact h.deeper m hm hlt
      · obtain rfl : m = k := by omega
        exact hk
    · exact ⟨by omega, hread, hopens, hheader, fun m hm hmk => by omega⟩

/-- A class line above an open one that is open itself is less deep. -/
theorem IsStackAt.pairwise {k : Nat} {scopes : List OpenScope} {js : List Nat}
    (h : IsStackAt lines read k scopes js) :
    js.Pairwise fun j j' => indentWidth (lines.getD j' []) < indentWidth (lines.getD j []) := by
  refine List.Pairwise.imp_of_mem (fun {j j'} hj hj' hlt => ?_) h.descending
  have hopen := (h.mem_iff j).1 hj
  exact ((h.mem_iff j').1 hj').deeper j hlt hopen.above hopen.is_read hopen.code

/-- Dropping a front part by a property that no member has behind one without it keeps exactly the
members without it. -/
theorem mem_dropWhile_iff {α : Type} {p : α → Bool} {xs : List α}
    (h : xs.Pairwise fun x y => p y = true → p x = true) {a : α} :
    a ∈ xs.dropWhile p ↔ a ∈ xs ∧ p a = false := by
  induction xs with
  | nil => simp
  | cons x xs ih =>
    obtain ⟨hx, hxs⟩ := List.pairwise_cons.1 h
    cases hp : p x with
    | true =>
      rw [List.dropWhile_cons_of_pos hp, ih hxs, List.mem_cons]
      refine and_congr_left fun ha => (or_iff_right ?_).symm
      rintro rfl
      exact Bool.false_ne_true (ha.symm.trans hp)
    | false =>
      have hall : ∀ a ∈ x :: xs, p a = false := by
        intro a ha
        rcases List.mem_cons.1 ha with rfl | ha
        · exact hp
        · exact Bool.eq_false_iff.2 fun hpa => Bool.false_ne_true (hp.symm.trans (hx a ha hpa))
      rw [List.dropWhile_cons_of_neg (by simp [hp])]
      exact ⟨fun ha => ⟨ha, hall a ha⟩, And.left⟩

/-- A line closes the classes that are not less deep. -/
theorem IsStackAt.exists_closeScopes {k : Nat} {scopes : List OpenScope} {js : List Nat}
    (h : IsStackAt lines read k scopes js) (line : Line) :
    ∃ js' : List Nat, closeScopes .python line scopes = js'.map (openedAt lines)
      ∧ js'.Pairwise (· > ·)
      ∧ ∀ j, j ∈ js'
        ↔ IsOpenAt lines read k j ∧ indentWidth (lines.getD j []) < indentWidth line := by
  have hmono : js.Pairwise fun j j' =>
      decide (indentWidth (lines.getD j' []) ≥ indentWidth line) = true →
      decide (indentWidth (lines.getD j []) ≥ indentWidth line) = true := by
    refine h.pairwise.imp fun {j j'} hlt hge => ?_
    rw [decide_eq_true_iff] at hge ⊢
    omega
  refine ⟨js.dropWhile fun j => indentWidth (lines.getD j []) ≥ indentWidth line, ?_,
    h.descending.sublist (List.dropWhile_sublist _), fun j => ?_⟩
  · rw [closeScopes, h.scopes_eq, List.dropWhile_map]
    rfl
  · rw [mem_dropWhile_iff hmono, h.mem_iff, decide_eq_false_iff_not, Nat.not_le]

/-- A line without code leaves the stack alone; code closes classes and, where it opens a class and
no unit, puts that on top. -/
theorem enterLine_python (scopes : List OpenScope) (line : Line) :
    (enterLine .python scopes line).1
      = if isCode line then
          if (Header.ofLine? .python line).isSome then closeScopes .python line scopes
          else openScope .python line (closeScopes .python line scopes)
        else scopes := by
  rw [enterLine, isCode, ← Bool.not_or]
  cases allBlank line || isCommentLine .python line with
  | true => rfl
  | false => cases Header.ofLine? .python line <;> rfl

theorem openScope_of_none {line : Line} (h : scopeOfLine? .python line = none)
    (scopes : List OpenScope) : openScope .python line scopes = scopes := by
  rw [openScope, h]

theorem openScope_of_some {line : Line} {name : String}
    (h : scopeOfLine? .python line = some name) (scopes : List OpenScope) :
    openScope .python line scopes = ⟨indentWidth line, name⟩ :: scopes := by
  rw [openScope, h]
  rfl

/-- Reading a line, or passing over it, keeps what the stack holds. -/
theorem IsStackAt.exists_succ {k : Nat} {scopes : List OpenScope} {js : List Nat}
    (h : IsStackAt lines read k scopes js) :
    ∃ js', IsStackAt lines read (k + 1)
      (if read k then (enterLine .python scopes (lines.getD k [])).1 else scopes) js' := by
  -- a line that is not read, or has no code, opens nothing and closes nothing
  have hsame : (read k = true → isCode (lines.getD k []) = false) →
      IsStackAt lines read (k + 1) scopes js := by
    intro hquiet
    refine ⟨h.scopes_eq, h.descending, fun j => ?_⟩
    rw [h.mem_iff, isOpenAt_succ_iff]
    constructor
    · intro hj
      refine .inl ⟨hj, fun hread hcode => ?_⟩
      exact absurd ((hquiet hread).symm.trans hcode) Bool.false_ne_true
    · rintro (⟨hj, -⟩ | ⟨rfl, hread, hopens, -⟩)
      · exact hj
      · obtain ⟨name, hname⟩ := Option.isSome_iff_exists.1 hopens
        exact absurd ((hquiet hread).symm.trans (spec_of_scopeOfLine? hname).1) Bool.false_ne_true
  cases hread : read k with
  | false => exact ⟨js, by simpa using hsame (by simp [hread])⟩
  | true =>
    rw [if_pos rfl, enterLine_python]
    cases hcode : isCode (lines.getD k []) with
    | false => exact ⟨js, by simpa using hsame fun _ => hcode⟩
    | true =>
      obtain ⟨js', hclosed, hdescending, hmem⟩ := h.exists_closeScopes (lines.getD k [])
      -- what is open behind the line, apart from the line itself
      have hold : ∀ j, j ∈ js' ↔ IsOpenAt lines read k j ∧ (read k = true →
          isCode (lines.getD k []) = true →
          indentWidth (lines.getD j []) < indentWidth (lines.getD k [])) := by
        intro j
        rw [hmem, hread, hcode]
        simp
      rw [if_pos rfl, hclosed]
      cases hheader : Header.ofLine? .python (lines.getD k []) with
      | some header =>
        refine ⟨js', rfl, hdescending, fun j => ?_⟩
        rw [hold, isOpenAt_succ_iff, hheader]
        simp
      | none =>
        cases hopens : scopeOfLine? .python (lines.getD k []) with
        | none =>
          have hkept := openScope_of_none hopens (js'.map (openedAt lines))
          refine ⟨js', by simpa using hkept, hdescending, fun j => ?_⟩
          rw [hold, isOpenAt_succ_iff, hopens]
          simp
        | some name =>
          have hpush : openScope .python (lines.getD k []) (js'.map (openedAt lines))
              = (k :: js').map (openedAt lines) := by
            rw [openScope_of_some hopens, List.map_cons, openedAt, hopens, Option.getD_some]
          refine ⟨k :: js', by simpa using hpush,
            List.pairwise_cons.2 ⟨fun j hj => ?_, hdescending⟩, fun j => ?_⟩
          · exact ((hold j).1 hj).1.above
          · rw [List.mem_cons, hold, isOpenAt_succ_iff, or_comm, hread, hopens, hheader]
            simp

theorem scopesBehind_append {l : Language} (scopes : List OpenScope) (index : Nat)
    (front rest : List Line) :
    scopesBehind l read scopes index (front ++ rest)
      = scopesBehind l read (scopesBehind l read scopes index front) (index + front.length)
        rest := by
  induction front generalizing scopes index with
  | nil => rfl
  | cons line front ih =>
    rw [List.cons_append, scopesBehind, scopesBehind, ih, List.length_cons, Nat.add_assoc,
      Nat.add_comm 1]

/-- The stack in front of every line holds the open class lines. -/
theorem exists_isStackAt (lines : List Line) (read : Nat → Bool) (k : Nat) (hk : k ≤ lines.length) :
    ∃ js, IsStackAt lines read k (scopesBehind .python read [] 0 (lines.take k)) js := by
  induction k with
  | zero =>
    refine ⟨[], rfl, .nil, fun j => ⟨fun hj => absurd hj List.not_mem_nil, fun hj => ?_⟩⟩
    exact absurd hj.above (Nat.not_lt_zero j)
  | succ k ih =>
    obtain ⟨js, hjs⟩ := ih (Nat.le_of_succ_le hk)
    have htake : lines.take (k + 1) = lines.take k ++ [lines.getD k []] := by
      rw [List.getD_eq_getElem _ _ hk, List.take_append_getElem]
    rw [htake, scopesBehind_append, List.length_take_of_le (Nat.le_of_succ_le hk), Nat.zero_add]
    exact hjs.exists_succ

/-! ### The lines that are passed over -/

section Units

variable {text : String} {u v : CodeUnit} {i j k : Nat}

/-- Behind the first line of a unit its code is deeper. -/
theorem deeper_in_unit (hu : u ∈ segment o text file .python) (hk : u.range.start < k)
    (hstop : k < u.range.stop) (hcode : isCode ((linesOf text).getD k []) = true) :
    indentWidth ((linesOf text).getD u.range.start [])
      < indentWidth ((linesOf text).getD k []) := by
  obtain ⟨hstart, -, hend⟩ := stop_of_mem_segment hu
  have hends := endsByIndentation hstart
  rw [hend, unitEnd, unitLength_python] at hstop
  have hlt : k < (linesOf text).length := Nat.lt_of_lt_of_le hstop hends.le_length
  have hline : (linesOf text)[k]? = some ((linesOf text).getD k []) := by
    rw [List.getD_eq_getElem _ _ hlt, List.getElem?_eq_getElem hlt]
  rcases hends.inside k _ hk hstop hline with hblank | hdeeper
  · rw [isCode, hblank] at hcode
    cases hcode
  · exact hdeeper

/-- A class line stands outside of all units exactly if it is read. -/
theorem isRead_iff_outside (hheader : Header.ofLine? .python ((linesOf text).getD j []) = none) :
    isRead (segment o text file .python) j = true
      ↔ ∀ u ∈ segment o text file .python, u.range.contains j = false := by
  rw [isRead, List.all_eq_true]
  refine forall₂_congr fun u hu => ?_
  rw [← Bool.not_eq_true, LineRange.contains_iff, Bool.or_eq_true, decide_eq_true_iff,
    decide_eq_true_iff]
  have hne : u.range.start ≠ j := by
    rintro rfl
    have hdefines := (stop_of_mem_segment hu).2.1
    rw [isDefinition, hheader] at hdefines
    cases hdefines
  omega

/-- The open class lines that are less deep than a line are those that hold it: lines that are
passed over belong to units, and their code is deeper than the first line of the unit. -/
theorem holdsLine_iff (hcode : isCode ((linesOf text).getD i []) = true) :
    HoldsLine (linesOf text) (segment o text file .python) j i
      ↔ IsOpenAt (linesOf text) (isRead (segment o text file .python)) i j
        ∧ indentWidth ((linesOf text).getD j []) < indentWidth ((linesOf text).getD i []) := by
  constructor
  · intro h
    refine ⟨⟨h.above, (isRead_iff_outside h.no_header).2 h.outside, h.opens, h.no_header,
      fun m hm hmi _ hcode => h.deeper m hm (Nat.le_of_lt hmi) hcode⟩, ?_⟩
    exact h.deeper i h.above (Nat.le_refl i) hcode
  · rintro ⟨h, hless⟩
    have houtside := (isRead_iff_outside h.no_header).1 h.is_read
    refine ⟨h.above, houtside, h.opens, h.no_header, fun k hk hki hcode => ?_⟩
    rcases Nat.lt_or_eq_of_le hki with hki | rfl
    · cases hread : isRead (segment o text file .python) k with
      | true => exact h.deeper k hk hki hread hcode
      | false =>
        obtain ⟨u, hu, hinside⟩ := List.all_eq_false.1 hread
        simp only [Bool.or_eq_true, decide_eq_true_iff, not_or, Nat.not_le] at hinside
        have hdeeper := deeper_in_unit hu hinside.1 hinside.2 hcode
        have hjstart : j < u.range.start := by
          have hout := houtside u hu
          rw [← Bool.not_eq_true, LineRange.contains_iff] at hout
          omega
        obtain ⟨header, hheader⟩ := Option.isSome_iff_exists.1 (stop_of_mem_segment hu).2.1
        have hstart := h.deeper u.range.start hjstart (by omega) (isRead_start hu)
          (isCode_of_header hheader)
        omega
    · exact hless

/-- The scope of a unit is the class of the first of the lines that hold it, from the innermost
outwards. -/
theorem exists_holding_lines (hu : u ∈ segment o text file .python) :
    ∃ js : List Nat, js.Pairwise (· > ·)
      ∧ (∀ j, j ∈ js ↔ HoldsLine (linesOf text) (segment o text file .python) j u.range.start)
      ∧ u.scope = js.head?.bind fun j => scopeOfLine? .python ((linesOf text).getD j []) := by
  obtain ⟨hlt, hdefines, -⟩ := stop_of_mem_segment hu
  have hline : (linesOf text)[u.range.start]? = some ((linesOf text).getD u.range.start []) := by
    rw [List.getD_eq_getElem _ _ hlt, List.getElem?_eq_getElem hlt]
  obtain ⟨h, hh, -, hunit⟩ := (mem_segment_iff (isBlankString_of_mem_segment hu) text
    (isRead_start hu) hline u).1 ⟨hu, rfl⟩
  obtain ⟨js, hjs⟩ := exists_isStackAt (linesOf text) (isRead (segment o text file .python))
    u.range.start (Nat.le_of_lt hlt)
  obtain ⟨js', hclosed, hdescending, hmem⟩ :=
    hjs.exists_closeScopes ((linesOf text).getD u.range.start [])
  have hholds : ∀ j, j ∈ js'
      ↔ HoldsLine (linesOf text) (segment o text file .python) j u.range.start :=
    fun j => (hmem j).trans (holdsLine_iff (isCode_of_header hh)).symm
  refine ⟨js', hdescending, hholds, ?_⟩
  rw [(isMadeOf_of_unitAt? hunit).scope, scopeAt, hclosed, scopeOf, owner_eq_none hh]
  cases js' with
  | nil => rfl
  | cons j rest =>
    obtain ⟨name, hname⟩ := Option.isSome_iff_exists.1 ((hholds j).1 List.mem_cons_self).opens
    have hvisible := (spec_of_scopeOfLine? hname).2
    simp only [List.map_cons, List.head?_cons, Option.map_some, Option.bind_some, openedAt, hname,
      Option.getD_some, Option.filter_some, hvisible]
    rfl

end Units

/-- The scope of a Python unit is the innermost class that holds its first line, and the unit is in
no scope exactly if no class holds it. -/
theorem scope_is_innermost_class (o : SegmentOptions) (text file : String) (u : CodeUnit)
    (hu : u ∈ segment o text file .python) :
    (∀ name, u.scope = some name
      ↔ ∃ j, IsGreatest
          {j | HoldsLine (linesOf text) (segment o text file .python) j u.range.start} j
        ∧ scopeOfLine? .python ((linesOf text).getD j []) = some name)
      ∧ (u.scope = none
        ↔ ¬ ∃ j, HoldsLine (linesOf text) (segment o text file .python) j u.range.start) := by
  obtain ⟨js, hdescending, hholds, hscope⟩ := exists_holding_lines hu
  cases js with
  | nil =>
    have hnone : ∀ j, ¬ HoldsLine (linesOf text) (segment o text file .python) j u.range.start :=
      fun j hj => List.not_mem_nil ((hholds j).2 hj)
    refine ⟨fun name => ⟨fun h => ?_, fun ⟨j, hj, _⟩ => absurd hj.1 (hnone j)⟩,
      ⟨fun _ ⟨j, hj⟩ => hnone j hj, fun _ => hscope⟩⟩
    rw [hscope] at h
    cases h
  | cons j rest =>
    have hj := (hholds j).1 List.mem_cons_self
    have hgreatest : IsGreatest
        {j | HoldsLine (linesOf text) (segment o text file .python) j u.range.start} j := by
      refine ⟨hj, fun i hi => ?_⟩
      rcases List.mem_cons.1 ((hholds i).2 hi) with rfl | hi
      · exact Nat.le_refl i
      · exact Nat.le_of_lt ((List.pairwise_cons.1 hdescending).1 i hi)
    rw [List.head?_cons, Option.bind_some] at hscope
    rw [hscope]
    refine ⟨fun name => ⟨fun h => ⟨j, hgreatest, h⟩, ?_⟩, ⟨fun h => ?_, fun h => absurd ⟨j, hj⟩ h⟩⟩
    · rintro ⟨i, hi, h⟩
      rwa [hgreatest.unique hi]
    · have hopens := hj.opens
      rw [h] at hopens
      cases hopens

/-- A class in a class, with a function that has a class of its own inside, and a comment that ends
neither. -/
def nestedText : String :=
  "class Outer:\n    class Inner:\n        def f(x):\n            class Local:\n"
    ++ "                pass\n            return x\n# note\n        def g(x):\n"
    ++ "            return x\n    def h(x):\n        return x\n"

/-- Of the two classes that hold a unit the inner one is its scope, until it is left. -/
theorem scope_is_innermost_class_nested :
    ∃ u ∈ segment {} nestedText "app.py" .python, ∃ v ∈ segment {} nestedText "app.py" .python,
      u.range.start = 7 ∧ v.range.start = 9
        ∧ (∃ j, IsGreatest
            {j | HoldsLine (linesOf nestedText) (segment {} nestedText "app.py" .python) j 7} j
          ∧ scopeOfLine? .python ((linesOf nestedText).getD j []) = some "Inner")
        ∧ (∃ j, IsGreatest
            {j | HoldsLine (linesOf nestedText) (segment {} nestedText "app.py" .python) j 9} j
          ∧ scopeOfLine? .python ((linesOf nestedText).getD j []) = some "Outer") := by
  have hunits : (segment {} nestedText "app.py" .python).map (fun u => (u.range.start, u.scope))
      = [(2, some "Inner"), (7, some "Inner"), (9, some "Outer")] := by
    decide +kernel
  obtain ⟨u, hu, hinner⟩ : ∃ u ∈ segment {} nestedText "app.py" .python,
      (u.range.start, u.scope) = (7, some "Inner") :=
    List.mem_map.1 (hunits ▸ by simp)
  obtain ⟨v, hv, houter⟩ : ∃ u ∈ segment {} nestedText "app.py" .python,
      (u.range.start, u.scope) = (9, some "Outer") :=
    List.mem_map.1 (hunits ▸ by simp)
  obtain ⟨hustart, huscope⟩ := Prod.mk.inj hinner
  obtain ⟨hvstart, hvscope⟩ := Prod.mk.inj houter
  have hg := ((scope_is_innermost_class {} nestedText "app.py" u hu).1 "Inner").1 huscope
  have hh := ((scope_is_innermost_class {} nestedText "app.py" v hv).1 "Outer").1 hvscope
  rw [hustart] at hg
  rw [hvstart] at hh
  exact ⟨u, hu, v, hv, hustart, hvstart, hg, hh⟩

end Marginalia
