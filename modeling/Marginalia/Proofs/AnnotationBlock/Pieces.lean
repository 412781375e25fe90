import Mathlib.Algebra.GroupWithZero.Nat
import Marginalia.AnnotationBlock.Removal
import Marginalia.Proofs.Text.Lines

/-!
How a text falls into pieces. A block starts wherever a sentinel opens one, whatever stands behind
it, and never reaches over code. So the lines that stay are the same as a text of their own, and a
line of code is found among them at its old place less the removed lines above it.
-/

namespace Marginalia

open Text

/-- The line opens a block of some format. -/
def LineKind.isOpener (kind : LineKind) : Bool :=
  kind.role == some .start || kind.role == some .stop || kind.role == some .metadata

/-! ### Recognizing a block -/

namespace BlockFormat

/-- Every opener has a format that does not ask for an end, so it opens a block in any text. -/
theorem recognize?_eq_none_iff {kind : LineKind} {kinds : List LineKind} :
    recognize? (kind :: kinds) = none ↔ kind.isOpener = false := by
  simp only [recognize?, all, List.findSome?_cons, List.findSome?_nil, length?, opener,
    endCondition, lengthBy, LineKind.isOpener]
  rcases kind.role with _ | _ | _ | _ | _
  · simp
  · cases lengthTo .stop kinds <;> cases paddedLength kinds <;> simp
  · simp
  · cases lengthTo .separator kinds <;> simp
  · simp

theorem lengthTo_spec {closer : Sentinel} {kinds : List LineKind} {n : Nat}
    (h : lengthTo closer kinds = some n) : n ≤ kinds.length ∧ .code ∉ kinds.take n := by
  fun_induction lengthTo closer kinds generalizing n with
  | case1 => obtain rfl := Option.some.inj h; simp
  | case2 role rest hrole ih =>
    obtain ⟨m, hm, rfl⟩ := Option.map_eq_some_iff.1 h
    simpa using ih hm
  | case3 => simp at h

theorem paddedLength_spec {kinds : List LineKind} {n : Nat} (h : paddedLength kinds = some n) :
    n ≤ kinds.length ∧ .code ∉ kinds.take n := by
  fun_induction paddedLength kinds generalizing n with
  | case1 rest =>
    obtain rfl := Option.some.inj h
    have hblanks := List.takeWhile_prefix (· == LineKind.blank) (l := rest)
    rw [Nat.add_comm, List.take_succ_cons, ← List.prefix_iff_eq_take.1 hblanks]
    refine ⟨by simpa using hblanks.length_le, ?_⟩
    simp only [List.mem_cons, reduceCtorEq, false_or]
    exact fun hcode => absurd (List.mem_takeWhile_imp hcode) (by decide)
  | case2 rest role hrole ih =>
    obtain ⟨m, hm, rfl⟩ := Option.map_eq_some_iff.1 h
    simpa using ih hm
  | case3 rest ih =>
    obtain ⟨m, hm, rfl⟩ := Option.map_eq_some_iff.1 h
    simpa using ih hm
  | case4 => simp at h

theorem lengthBy_spec {e : EndCondition} {kinds : List LineKind} {n : Nat}
    (h : lengthBy e kinds = some n) : n ≤ kinds.length ∧ .code ∉ kinds.take n := by
  cases e with
  | sentinel | separator => exact lengthTo_spec h
  | paddedSentinel => exact paddedLength_spec h
  | sameLine => obtain rfl := Option.some.inj h; simp
  | commentRun =>
    obtain rfl := Option.some.inj h
    have hcomments := List.takeWhile_prefix LineKind.isComment (l := kinds)
    rw [← List.prefix_iff_eq_take.1 hcomments]
    exact ⟨hcomments.length_le, fun hcode => absurd (List.mem_takeWhile_imp hcode) (by decide)⟩

/-- A block that is recognized starts with the opener of its format and goes on up to its end. -/
theorem recognize?_cons {kind : LineKind} {kinds : List LineKind} {f : BlockFormat} {n : Nat}
    (h : recognize? (kind :: kinds) = some (f, n)) :
    kind.role = some f.opener ∧ ∃ m, lengthBy f.endCondition kinds = some m ∧ n = m + 1 := by
  obtain ⟨g, -, hg⟩ := List.exists_of_findSome?_eq_some h
  obtain ⟨m, hm, he⟩ := Option.map_eq_some_iff.1 hg
  cases he
  rw [length?] at hm
  split at hm
  · next hrole =>
    obtain ⟨k, hk, rfl⟩ := Option.map_eq_some_iff.1 hm
    exact ⟨hrole, k, hk, rfl⟩
  · exact absurd hm (by simp)

/-- A block ends within the text and has no code in it. -/
theorem recognize?_spec {kinds : List LineKind} {f : BlockFormat} {n : Nat}
    (h : recognize? kinds = some (f, n)) : n ≤ kinds.length ∧ .code ∉ kinds.take n := by
  cases kinds with
  | nil => exact absurd h (by simp [recognize?, all, length?])
  | cons kind rest =>
    obtain ⟨hrole, m, hm, rfl⟩ := recognize?_cons h
    have hne : LineKind.code ≠ kind := by rintro rfl; simp [LineKind.role] at hrole
    simpa [hne] using lengthBy_spec hm

theorem lengthTo_replicate (n : Nat) (rest : List LineKind) :
    lengthTo .stop (List.replicate n (.comment none) ++ .comment (some .stop) :: rest)
      = some (n + 1) := by
  induction n with
  | zero => simp [lengthTo]
  | succ n ih => simp [List.replicate_succ, lengthTo, ih]

/-- A block in the layout that is written is recognized whatever stands behind it. -/
theorem recognize?_delimited (n : Nat) (rest : List LineKind) :
    recognize? (.comment (some .start) :: List.replicate n (.comment none)
      ++ .comment (some .stop) :: rest) = some (.delimited, n + 2) := by
  simp [recognize?, all, length?, opener, endCondition, lengthBy, LineKind.role,
    lengthTo_replicate]

end BlockFormat

/-! ### Pieces -/

theorem piecesFrom_covered (covered : Nat) (lines : List Line) (kinds : List LineKind) :
    piecesFrom covered lines kinds = piecesFrom 0 (lines.drop covered) (kinds.drop covered) := by
  induction lines generalizing covered kinds with
  | nil => simp [piecesFrom]
  | cons line rest ih =>
    cases covered with
    | zero => rfl
    | succ covered => rw [piecesFrom, ih, List.drop_succ_cons, List.drop_tail]

variable {l : Language}

theorem pieces_nil : pieces l [] = [] := rfl

/-- A line that opens no block stays. -/
theorem pieces_cons {line : Line} (h : (LineKind.of l line).isOpener = false)
    (rest : List Line) : pieces l (line :: rest) = .line line :: pieces l rest := by
  rw [pieces, List.map_cons, piecesFrom, BlockFormat.recognize?_eq_none_iff.2 h]
  rfl

/-- A block that is recognized goes as a whole. -/
theorem pieces_append {block rest : List Line} {f : BlockFormat}
    (h : BlockFormat.recognize? ((block ++ rest).map (LineKind.of l)) = some (f, block.length)) :
    pieces l (block ++ rest) = .block f block :: pieces l rest := by
  cases block with
  | nil => exact absurd (BlockFormat.recognize?_pos h) (by simp)
  | cons line block =>
    rw [pieces, List.cons_append, List.map_cons, piecesFrom]
    rw [List.cons_append, List.map_cons] at h
    simp only [h]
    rw [piecesFrom_covered]
    simp [pieces]

/-- A block that is recognized has no code in it. -/
theorem not_code_of_recognize? {block rest : List Line} {f : BlockFormat}
    (h : BlockFormat.recognize? ((block ++ rest).map (LineKind.of l)) = some (f, block.length)) :
    ∀ line ∈ block, LineKind.of l line ≠ .code := by
  intro line hline hkind
  apply (BlockFormat.recognize?_spec h).2
  rw [← List.map_take, List.take_left]
  exact List.mem_map.2 ⟨line, hline, hkind⟩

/-- Induction along the pieces of a text, each block as it is recognized. -/
theorem pieces_induction_recognized {motive : List Line → List Piece → Prop} (nil : motive [] [])
    (line : ∀ line rest, (LineKind.of l line).isOpener = false → motive rest (pieces l rest) →
      motive (line :: rest) (.line line :: pieces l rest))
    (block : ∀ f block rest,
      BlockFormat.recognize? ((block ++ rest).map (LineKind.of l)) = some (f, block.length) →
      motive rest (pieces l rest) → motive (block ++ rest) (.block f block :: pieces l rest))
    (lines : List Line) : motive lines (pieces l lines) := by
  induction hlen : lines.length using Nat.strong_induction_on generalizing lines with
  | _ length ih =>
    cases lines with
    | nil => exact nil
    | cons head rest =>
      cases hr : BlockFormat.recognize? ((head :: rest).map (LineKind.of l)) with
      | none =>
        have hhead := BlockFormat.recognize?_eq_none_iff.1 hr
        rw [pieces_cons hhead]
        exact line head rest hhead (ih rest.length (by simp at hlen; omega) rest rfl)
      | some found =>
        obtain ⟨f, n⟩ := found
        have hpos := BlockFormat.recognize?_pos hr
        have hn := (BlockFormat.recognize?_spec hr).1
        rw [List.length_map] at hn
        have htake : ((head :: rest).take n).length = n := List.length_take_of_le hn
        have hsplit := List.take_append_drop n (head :: rest)
        generalize (head :: rest).take n = front at htake hsplit
        generalize (head :: rest).drop n = back at hsplit
        rw [← hsplit] at hr hlen ⊢
        subst htake
        rw [List.length_append] at hlen
        rw [pieces_append hr]
        exact block f front back hr (ih back.length (by omega) back rfl)

/-- Induction along the pieces of a text. -/
theorem pieces_induction {motive : List Line → List Piece → Prop} (nil : motive [] [])
    (line : ∀ line rest, (LineKind.of l line).isOpener = false → motive rest (pieces l rest) →
      motive (line :: rest) (.line line :: pieces l rest))
    (block : ∀ f block rest, block ≠ [] → (∀ line ∈ block, LineKind.of l line ≠ .code) →
      motive rest (pieces l rest) → motive (block ++ rest) (.block f block :: pieces l rest))
    (lines : List Line) : motive lines (pieces l lines) := by
  refine pieces_induction_recognized nil line (fun f front rest hr ih => ?_) lines
  exact block f front rest (List.ne_nil_of_length_pos (BlockFormat.recognize?_pos hr))
    (not_code_of_recognize? hr) ih

/-- What stays opens no block. -/
theorem isOpener_of_mem_keptLines {lines : List Line} {line : Line}
    (h : line ∈ keptLines (pieces l lines)) : (LineKind.of l line).isOpener = false := by
  revert h
  refine pieces_induction (motive := fun _ ps => line ∈ keptLines ps → _) ?_ ?_ ?_ lines
  · exact fun h => absurd h List.not_mem_nil
  · intro x rest hx ih h
    rcases List.mem_cons.1 h with rfl | h
    · exact hx
    · exact ih h
  · intro f block rest _ _ ih h
    exact ih h

/-- A text of lines that open no block is made of these lines. -/
theorem pieces_of_not_opener {lines : List Line}
    (h : ∀ line ∈ lines, (LineKind.of l line).isOpener = false) :
    pieces l lines = lines.map .line := by
  induction lines with
  | nil => rfl
  | cons line rest ih =>
    rw [pieces_cons (h line (by simp)), ih fun x hx => h x (List.mem_cons_of_mem _ hx),
      List.map_cons]

theorem keptLines_line (line : Line) (ps : List Piece) :
    keptLines (.line line :: ps) = line :: keptLines ps := rfl

theorem keptLines_block (f : BlockFormat) (ls : List Line) (ps : List Piece) :
    keptLines (.block f ls :: ps) = keptLines ps := rfl

theorem keptLines_append (ps qs : List Piece) :
    keptLines (ps ++ qs) = keptLines ps ++ keptLines qs := List.filterMap_append

theorem keptLines_sublist (l : Language) (lines : List Line) :
    (keptLines (pieces l lines)).Sublist lines := by
  refine pieces_induction (motive := fun lines ps => (keptLines ps).Sublist lines) ?_ ?_ ?_ lines
  · exact List.Sublist.refl _
  · exact fun line rest _ ih => ih.cons_cons line
  · exact fun f block rest _ _ ih => ih.trans (List.sublist_append_right block rest)

/-- A line of code is a piece of its own. -/
theorem pieces_at_code {lines : List Line} {i : Nat} {line : Line} (h : lines[i]? = some line)
    (hcode : LineKind.of l line = .code) :
    ∃ ps qs, pieces l lines = ps ++ .line line :: qs ∧ (ps.flatMap Piece.lines).length = i := by
  revert i
  refine pieces_induction (motive := fun lines pieces => ∀ {i}, lines[i]? = some line →
    ∃ ps qs, pieces = ps ++ .line line :: qs ∧ (ps.flatMap Piece.lines).length = i) ?_ ?_ ?_ lines
  · simp
  · intro x rest _ ih i h
    cases i with
    | zero =>
      obtain rfl : x = line := by simpa using h
      exact ⟨[], pieces l rest, rfl, rfl⟩
    | succ i =>
      obtain ⟨ps, qs, hps, hlen⟩ := ih (by simpa using h)
      exact ⟨.line x :: ps, qs, by rw [hps]; rfl, by simp [Piece.lines, hlen]⟩
  · intro f block rest _ hblock ih i h
    rcases Nat.lt_or_ge i block.length with hi | hi
    · rw [List.getElem?_append_left hi] at h
      exact absurd hcode (hblock line (List.mem_of_getElem? h))
    · rw [List.getElem?_append_right hi] at h
      obtain ⟨ps, qs, hps, hlen⟩ := ih h
      exact ⟨.block f block :: ps, qs, by rw [hps]; rfl, by simp [Piece.lines, hlen]; omega⟩

/-! ### Places among the lines that stay -/

theorem Piece.length_lines_cons (p : Piece) (ps : List Piece) :
    ((p :: ps).flatMap Piece.lines).length = p.lines.length + (ps.flatMap Piece.lines).length := by
  rw [List.flatMap_cons, List.length_append]

theorem Piece.length_lines_line (line : Line) : (Piece.line line).lines.length = 1 := rfl

theorem Piece.length_lines_block (f : BlockFormat) (ls : List Line) :
    (Piece.block f ls).lines.length = ls.length := rfl

theorem removedFrom_append (start : Nat) (ps qs : List Piece) :
    removedFrom start (ps ++ qs)
      = removedFrom start ps ++ removedFrom (start + (ps.flatMap Piece.lines).length) qs := by
  induction ps generalizing start with
  | nil => rfl
  | cons p ps ih =>
    rw [Piece.length_lines_cons, ← Nat.add_assoc]
    cases p with
    | line x => exact ih (start + 1)
    | block f ls => exact congrArg (⟨f, start, ls.length⟩ :: ·) (ih (start + ls.length))

theorem start_le_of_mem_removedFrom {start : Nat} {ps : List Piece} {b : RemovedBlock}
    (h : b ∈ removedFrom start ps) : start ≤ b.start := by
  induction ps generalizing start with
  | nil => simp [removedFrom] at h
  | cons p ps ih =>
    cases p with
    | line x => exact Nat.le_of_succ_le (ih h)
    | block f ls =>
      rcases List.mem_cons.1 h with rfl | h
      · exact Nat.le_refl _
      · exact Nat.le_trans (Nat.le_add_right _ _) (ih h)

theorem stop_le_of_mem_removedFrom {start : Nat} {ps : List Piece} {b : RemovedBlock}
    (h : b ∈ removedFrom start ps) :
    b.start + b.length ≤ start + (ps.flatMap Piece.lines).length := by
  induction ps generalizing start with
  | nil => simp [removedFrom] at h
  | cons p ps ih =>
    rw [Piece.length_lines_cons, ← Nat.add_assoc]
    cases p with
    | line x => exact ih h
    | block f ls =>
      rcases List.mem_cons.1 h with rfl | h
      · exact Nat.le_add_right _ _
      · exact ih h

/-- The lines of pieces are those that stay and those of the blocks. -/
theorem length_keptLines_add_removed (start : Nat) (ps : List Piece) :
    (keptLines ps).length + ((removedFrom start ps).map (·.length)).sum
      = (ps.flatMap Piece.lines).length := by
  induction ps generalizing start with
  | nil => rfl
  | cons p ps ih =>
    rw [Piece.length_lines_cons]
    cases p with
    | line x =>
      rw [removedFrom, keptLines_line, List.length_cons, Piece.length_lines_line, ← ih (start + 1)]
      omega
    | block f ls =>
      rw [removedFrom, keptLines_block, List.map_cons, List.sum_cons, Piece.length_lines_block,
        ← ih (start + ls.length)]
      dsimp only
      omega

/-- A removed block in its place: the lines above it, its own ones, and those below it with which it
was recognized. -/
theorem exists_of_mem_removedFrom {start : Nat} {lines : List Line} {b : RemovedBlock}
    (h : b ∈ removedFrom start (pieces l lines)) :
    ∃ above block below, lines = above ++ (block ++ below)
      ∧ b = ⟨b.format, start + above.length, block.length⟩
      ∧ BlockFormat.recognize? ((block ++ below).map (LineKind.of l))
        = some (b.format, block.length) := by
  revert start
  refine pieces_induction_recognized (motive := fun lines ps => ∀ {start},
    b ∈ removedFrom start ps → ∃ above block below, lines = above ++ (block ++ below)
      ∧ b = ⟨b.format, start + above.length, block.length⟩
      ∧ BlockFormat.recognize? ((block ++ below).map (LineKind.of l))
        = some (b.format, block.length)) ?_ ?_ ?_ lines
  · exact fun h => absurd h List.not_mem_nil
  · intro x rest _ ih start h
    obtain ⟨above, block, below, rfl, hb, hr⟩ := ih h
    rw [Nat.add_assoc, Nat.add_comm 1] at hb
    exact ⟨x :: above, block, below, rfl, hb, hr⟩
  · intro f block rest hr ih start h
    rcases List.mem_cons.1 h with rfl | h
    · exact ⟨[], block, rest, rfl, rfl, hr⟩
    · obtain ⟨above, block', below, rfl, hb, hr'⟩ := ih h
      rw [Nat.add_assoc, ← List.length_append] at hb
      exact ⟨block ++ above, block', below, by rw [List.append_assoc], hb, hr'⟩

theorem length_pos_of_mem_removedFrom {start : Nat} {lines : List Line} {b : RemovedBlock}
    (h : b ∈ removedFrom start (pieces l lines)) : 0 < b.length := by
  obtain ⟨above, block, below, -, hb, hr⟩ := exists_of_mem_removedFrom h
  rw [hb]
  exact BlockFormat.recognize?_pos hr

section Shifted

variable {text : String} {ps qs : List Piece} {line : Line}
  (h : pieces l (splitLines text.toList) = ps ++ .line line :: qs)

include h

theorem removed_eq : (strip l text).removed = removedFrom 0 ps
    ++ removedFrom ((ps.flatMap Piece.lines).length + 1) qs := by
  simp only [strip, h, removedFrom_append, removedFrom, Nat.zero_add]

/-- The blocks above a line that stays are those that were cut before it. -/
theorem start_lt_of_mem_removedFrom : ∀ b ∈ removedFrom 0 ps,
    b.start < (ps.flatMap Piece.lines).length := by
  intro b hb
  have hmem : b ∈ removedFrom 0 (pieces l (splitLines text.toList)) := by
    rw [h, removedFrom_append]
    exact List.mem_append_left _ hb
  have hpos := length_pos_of_mem_removedFrom hmem
  have hstop := stop_le_of_mem_removedFrom hb
  omega

/-- A line that stays is found at its old place less the removed lines above it. -/
theorem shifted_eq :
    (strip l text).shifted (ps.flatMap Piece.lines).length = (keptLines ps).length := by
  have hsum := length_keptLines_add_removed 0 ps
  have habove := start_lt_of_mem_removedFrom h
  have hstop : ∀ b ∈ removedFrom 0 ps, b.start + b.length ≤ 0 + (ps.flatMap Piece.lines).length :=
    fun b hb => stop_le_of_mem_removedFrom hb
  rw [Stripped.shifted, removed_eq h]
  generalize (ps.flatMap Piece.lines).length = n at *
  have htake : (removedFrom 0 ps ++ removedFrom (n + 1) qs).takeWhile (·.start < n)
      = removedFrom 0 ps := by
    rw [List.takeWhile_append_of_pos fun b hb => decide_eq_true (habove b hb)]
    cases hqs : removedFrom (n + 1) qs with
    | nil => simp
    | cons b bs =>
      have hstart := start_le_of_mem_removedFrom (hqs ▸ List.mem_cons_self)
      rw [List.takeWhile_cons_of_neg (by simp; omega), List.append_nil]
  have hmin : (removedFrom 0 ps).map (fun b => min b.length (n - b.start))
      = (removedFrom 0 ps).map (·.length) := by
    refine List.map_congr_left fun b hb => ?_
    have hstop := hstop b hb
    omega
  simp only [htake, hmin]
  rw [← List.sum]
  omega

/-- A line that stays stands at its shifted place. -/
theorem getElem?_shifted :
    (strip l text).lines[(strip l text).shifted (ps.flatMap Piece.lines).length]? = some line := by
  have hlines : (strip l text).lines = keptLines ps ++ line :: keptLines qs := by
    simp only [strip, h, keptLines_append, keptLines_line]
  rw [shifted_eq h, hlines]
  simp

/-- The removed lines above a line that stays. -/
theorem shifted_add_removed : (strip l text).shifted (ps.flatMap Piece.lines).length
    + (((strip l text).removed.filter (·.start < (ps.flatMap Piece.lines).length)).map
      (·.length)).sum = (ps.flatMap Piece.lines).length := by
  have habove := start_lt_of_mem_removedFrom h
  have hbelow : ∀ b ∈ removedFrom ((ps.flatMap Piece.lines).length + 1) qs,
      ¬ b.start < (ps.flatMap Piece.lines).length := by
    intro b hb
    have hstart := start_le_of_mem_removedFrom hb
    omega
  have hfilter : (strip l text).removed.filter (·.start < (ps.flatMap Piece.lines).length)
      = removedFrom 0 ps := by
    rw [removed_eq h, List.filter_append,
      List.filter_eq_self.2 fun b hb => decide_eq_true (habove b hb),
      List.filter_eq_nil_iff.2 fun b hb => by simpa using hbelow b hb, List.append_nil]
  rw [hfilter, shifted_eq h]
  exact length_keptLines_add_removed 0 ps

end Shifted

/-! ### Stripped texts -/

theorem areLines_strip (l : Language) (text : String) : AreLines (strip l text).lines :=
  (areLines_splitLines _).sublist (keptLines_sublist l _)

theorem isOpener_strip {text : String} : ∀ line ∈ (strip l text).lines,
    (LineKind.of l line).isOpener = false := fun _ hline => isOpener_of_mem_keptLines hline

/-- A stripped text falls into the lines that stayed. -/
theorem splitLines_strip (l : Language) (text : String) :
    splitLines (strip l text).text.toList = (strip l text).lines := by
  rw [Stripped.text, String.toList_ofList, splitLines_flatten (areLines_strip l text)]

/-- A text of lines that open no block is stripped of nothing. -/
theorem strip_of_not_opener {text : String}
    (h : ∀ line ∈ splitLines text.toList, (LineKind.of l line).isOpener = false) :
    strip l text = ⟨splitLines text.toList, []⟩ := by
  have hnone : ∀ (start : Nat) (lines : List Line), removedFrom start (lines.map .line) = [] := by
    intro start lines
    induction lines generalizing start with
    | nil => rfl
    | cons line rest ih => exact ih (start + 1)
  have hall : ∀ lines : List Line, keptLines (lines.map .line) = lines := by
    intro lines
    induction lines with
    | nil => rfl
    | cons line rest ih => exact congrArg (line :: ·) ih
  rw [strip, pieces_of_not_opener h, hnone, hall]

/-- A stripped text has no blocks. -/
theorem removed_strip_strip (l : Language) (text : String) :
    (strip l (strip l text).text).removed = [] := by
  have hopen : ∀ line ∈ splitLines (strip l text).text.toList,
      (LineKind.of l line).isOpener = false := by
    rw [splitLines_strip]
    exact isOpener_strip
  rw [strip_of_not_opener hopen]

theorem keptLines_of_removedFrom_eq_nil {start : Nat} {ps : List Piece}
    (h : removedFrom start ps = []) : keptLines ps = ps.flatMap Piece.lines := by
  induction ps generalizing start with
  | nil => rfl
  | cons p ps ih =>
    cases p with
    | line x => exact congrArg (x :: ·) (ih h)
    | block f ls => exact absurd h (by simp [removedFrom])

/-- Where no block is taken out, all lines stay. -/
theorem lines_of_removed_eq_nil {text : String} (h : (strip l text).removed = []) :
    (strip l text).lines = splitLines text.toList := by
  have hkept : (strip l text).lines = (pieces l (splitLines text.toList)).flatMap Piece.lines :=
    keptLines_of_removedFrom_eq_nil h
  rw [hkept, pieces, flatMap_lines_piecesFrom, List.drop_zero]

theorem text_strip_of_removed_eq_nil {text : String} (h : (strip l text).removed = []) :
    (strip l text).text = text := by
  rw [Stripped.text, lines_of_removed_eq_nil h, flatten_splitLines, String.ofList_toList]

theorem shifted_of_removed_eq_nil {s : Stripped} (h : s.removed = []) (line : Nat) :
    s.shifted line = line := by
  simp [Stripped.shifted, h]

end Marginalia
