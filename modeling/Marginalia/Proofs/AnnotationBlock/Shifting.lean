import Mathlib.Order.Monotone.Defs
import Marginalia.Proofs.AnnotationBlock.Removal

/-!
Where lines come to stand when the blocks above them are taken out. The blocks above a line are
added up one by one, the last of them only as far as it reaches; as they follow each other without
overlap, the sum is the number of lines that are gone, and what is left of the line number is the
number of lines that stay above it.
-/

namespace Marginalia

open Text

/-- How many lines were taken out above a line, added up block by block. -/
def Stripped.takenAbove (s : Stripped) (line : Nat) : Nat :=
  ((s.removed.takeWhile (·.start < line)).map fun b => min b.length (line - b.start)).sum

/-- The line of this number stays, as no block took it. -/
def Stripped.keeps (s : Stripped) (line : Nat) : Bool := s.removed.all (!·.covers line)

variable {l : Language}

/-! ### Adding up blocks -/

/-- A block took as many of the first lines as it has among them. -/
theorem RemovedBlock.countP_covers (b : RemovedBlock) (n : Nat) :
    (List.range n).countP b.covers = min b.length (n - b.start) := by
  induction n with
  | zero => simp
  | succ n ih =>
    rw [List.range_succ, List.countP_append, ih, List.countP_singleton]
    simp only [covers, Bool.and_eq_true, decide_eq_true_eq]
    split <;> omega

/-- Blocks that start at a line or below it took none of the lines above. -/
theorem countP_any_covers_eq_zero {bs : List RemovedBlock} {n : Nat} (h : ∀ b ∈ bs, n ≤ b.start) :
    ((List.range n).countP fun i => bs.any (·.covers i)) = 0 := by
  refine List.countP_eq_zero.2 fun i hi => ?_
  have hlt := List.mem_range.1 hi
  simp only [List.any_eq_true, RemovedBlock.covers, Bool.and_eq_true, decide_eq_true_eq, not_exists]
  rintro b ⟨hb, hle, -⟩
  have hstart := h b hb
  omega

/-- No line is covered twice, so a block and those behind it add up. -/
theorem countP_any_covers_cons {b : RemovedBlock} {bs : List RemovedBlock}
    (h : ∀ c ∈ bs, b.start + b.length ≤ c.start) (n : Nat) :
    ((List.range n).countP fun i => (b :: bs).any (·.covers i))
      = (List.range n).countP b.covers + (List.range n).countP fun i => bs.any (·.covers i) := by
  induction n with
  | zero => rfl
  | succ n ih =>
    have halone : b.covers n = true → bs.any (·.covers n) = false := by
      simp only [RemovedBlock.covers, Bool.and_eq_true, decide_eq_true_eq, List.any_eq_false,
        not_and, not_lt]
      intro hcovers c hc hle
      have hstart := h c hc
      omega
    simp only [List.range_succ, List.countP_append, List.countP_singleton, ih]
    cases hb : b.covers n with
    | true => simp [hb, halone hb]; omega
    | false => simp [hb]; omega

/-- The blocks above a line, added up one by one, took as many lines as some block covers there. -/
theorem sum_takeWhile_eq_countP {bs : List RemovedBlock}
    (h : bs.Pairwise fun b c => b.start + b.length ≤ c.start) (n : Nat) :
    ((bs.takeWhile (·.start < n)).map fun b => min b.length (n - b.start)).sum
      = (List.range n).countP fun i => bs.any (·.covers i) := by
  induction bs with
  | nil => simp
  | cons b bs ih =>
    obtain ⟨hb, hbs⟩ := List.pairwise_cons.1 h
    by_cases habove : b.start < n
    · rw [List.takeWhile_cons_of_pos (by simpa using habove), List.map_cons, List.sum_cons, ih hbs,
        countP_any_covers_cons hb, b.countP_covers]
    · have hbelow : ∀ c ∈ b :: bs, n ≤ c.start := by
        intro c hc
        rcases List.mem_cons.1 hc with rfl | hc
        · omega
        · have hstart := hb c hc
          omega
      rw [List.takeWhile_cons_of_neg (by simpa using habove), countP_any_covers_eq_zero hbelow]
      rfl

/-! ### Places of lines -/

/-- What a line number loses are the lines above it that were taken out. -/
theorem takenAbove_eq_countP (l : Language) (text : String) (i : Nat) :
    (strip l text).takenAbove i = (List.range i).countP fun j => !(strip l text).keeps j := by
  have hordered : (strip l text).removed.Pairwise fun b c => b.start + b.length ≤ c.start :=
    pairwise_removedFrom 0 _
  rw [Stripped.takenAbove, sum_takeWhile_eq_countP hordered]
  refine List.countP_congr fun j _ => ?_
  simp [Stripped.keeps]

theorem shifted_eq_sub (s : Stripped) (i : Nat) : s.shifted i = i - s.takenAbove i := rfl

/-- The place of a line is the number of lines that stay above it. -/
theorem shifted_eq_countP (l : Language) (text : String) (i : Nat) :
    (strip l text).takenAbove i ≤ i
      ∧ (strip l text).shifted i = (List.range i).countP (strip l text).keeps := by
  have hboth := List.length_eq_countP_add_countP (strip l text).keeps (l := List.range i)
  simp only [List.length_range, Bool.not_eq_true, Bool.decide_eq_false] at hboth
  rw [shifted_eq_sub, takenAbove_eq_countP]
  omega

/-- An item of a list that stays among those chosen by their places stands there behind the chosen
ones above it. -/
theorem getElem?_filter_zipIdx {α : Type} {p : Nat → Bool} {xs : List α} {i : Nat} {x : α}
    (hx : xs[i]? = some x) (hp : p i = true) :
    ((xs.zipIdx.filter fun (_, j) => p j).map (·.1))[(List.range i).countP p]? = some x := by
  obtain ⟨hi, rfl⟩ := List.getElem?_eq_some_iff.1 hx
  have habove : ((xs.take i).zipIdx.filter fun (_, j) => p j).length
      = (List.range i).countP p := by
    have hrange : (xs.take i).zipIdx.map (·.2) = List.range i := by
      rw [List.zipIdx_map_snd, List.length_take_of_le (Nat.le_of_lt hi), List.range_eq_range']
    rw [← hrange, List.countP_map, List.countP_eq_length_filter]
    rfl
  have hsplit : xs.zipIdx
      = (xs.take i).zipIdx ++ (xs[i], i) :: (xs.drop (i + 1)).zipIdx (i + 1) := by
    conv_lhs => rw [← List.take_append_drop i xs, List.drop_eq_getElem_cons hi, List.zipIdx_append]
    rw [List.zipIdx_cons, List.length_take_of_le (Nat.le_of_lt hi), Nat.zero_add]
  rw [hsplit, List.filter_append, List.filter_cons_of_pos (by exact hp), List.map_append,
    List.getElem?_append_right (by rw [List.length_map, habove]), List.length_map, habove,
    Nat.sub_self]
  rfl

theorem lines_eq_filter (l : Language) (text : String) :
    (strip l text).lines = ((splitLines text.toList).zipIdx.filter fun (_, i) =>
      (strip l text).keeps i).map (·.1) := by
  have hkept := keptLines_eq_filter 0 (pieces l (splitLines text.toList))
  rwa [flatMap_lines_pieces] at hkept

/-- Line numbers are shifted exactly. What stays are the lines that no block took. The blocks above
a line never add up to more than its number, and what is left of the number counts the lines that
stay above it; so a line that stays is found there, the end of the text comes to the end of what
stays, and lower lines do not come to stand higher. -/
theorem shifted_counts_kept_lines (l : Language) (text : String) :
    let lines := splitLines text.toList
    let s := strip l text
    s.lines = (lines.zipIdx.filter fun (_, i) => s.keeps i).map (·.1)
      ∧ (∀ i, s.takenAbove i ≤ i ∧ s.shifted i = i - s.takenAbove i
        ∧ s.shifted i = (List.range i).countP s.keeps)
      ∧ (∀ i line, lines[i]? = some line → s.keeps i = true →
        s.lines[s.shifted i]? = some line)
      ∧ s.shifted lines.length = s.lines.length
      ∧ Monotone s.shifted := by
  intro lines s
  have hcount : ∀ i, s.shifted i = (List.range i).countP s.keeps := fun i =>
    (shifted_eq_countP l text i).2
  have hlines : s.lines = (lines.zipIdx.filter fun (_, i) => s.keeps i).map (·.1) :=
    lines_eq_filter l text
  refine ⟨hlines, fun i => ⟨(shifted_eq_countP l text i).1, shifted_eq_sub s i, hcount i⟩,
    fun i line hline hkeeps => ?_, ?_, fun i j hij => ?_⟩
  · rw [hcount, hlines]
    exact getElem?_filter_zipIdx hline hkeeps
  · have hrange : lines.zipIdx.map (·.2) = List.range lines.length := by
      rw [List.zipIdx_map_snd, List.range_eq_range']
    rw [hcount, ← hrange, List.countP_map, hlines, List.length_map, List.countP_eq_length_filter]
    rfl
  · rw [hcount, hcount]
    exact (List.range_sublist.2 hij).countP_le

/-- A text with a block in front of its code and a stray end behind it. -/
def blockedText : String :=
  "import os\n\n# --- MADL ---\n# {}\n# --- END MADL ---\ndef a():\n    pass\n# --- END MADL ---\nx"

/-- The line behind the block comes three lines higher, the last one four. -/
theorem shifted_counts_kept_lines_blocked :
    let lines := splitLines blockedText.toList
    let s := strip .python blockedText
    lines[5]? = some "def a():\n".toList ∧ s.keeps 5 = true
      ∧ s.lines[s.shifted 5]? = some "def a():\n".toList ∧ s.shifted 8 = 4 := by
  obtain ⟨-, -, hplace, -, -⟩ := shifted_counts_kept_lines .python blockedText
  have hline : (splitLines blockedText.toList)[5]? = some "def a():\n".toList := by decide +kernel
  have hkeeps : (strip .python blockedText).keeps 5 = true := by decide +kernel
  exact ⟨hline, hkeeps, hplace 5 _ hline hkeeps, by decide +kernel⟩

end Marginalia
