import Mathlib.Data.List.Chain
import Marginalia.LocalRules
import Marginalia.Proofs.Distinct

/-!
The words of a name. A name is cut at its dividers and before each upper-case character that follows
a lower-case one, and its segments are the maximal pieces that no cut goes through. The scan meets
every segment, in order, and the segments hold all characters of the name but its dividers. So the
words are the segments in lower case, each word at its first segment.
-/

namespace Marginalia.LocalRules

open Text

/-! ### Segments of a name -/

/-- The characters that stand between words and belong to none. -/
def nameDividers : List Char := "_$0123456789".toList

/-- A piece of a name that no cut goes through: no divider is in it, and no upper-case character
follows a lower-case one. -/
structure IsUncut (piece : List Char) : Prop where
  undivided : ∀ c ∈ piece, c ∉ nameDividers
  unbroken : piece.IsChain fun a b => ¬ (isLower a = true ∧ isUpper b = true)

/-- A maximal uncut piece of a name, by the parts of the name around it. -/
@[ext]
structure NameSegment where
  before : List Char
  piece : List Char
  after : List Char
  isUncut : IsUncut piece
  isPiece : piece ≠ []
  /-- No piece that goes on beyond it to either side is uncut. -/
  isMaximal : ∀ {x y}, x <:+ before → y <+: after → IsUncut (x ++ (piece ++ y)) → x = [] ∧ y = []

namespace NameSegment

/-- The whole name. -/
def name (s : NameSegment) : List Char := s.before ++ (s.piece ++ s.after)

/-- Where the segment begins. -/
def start (s : NameSegment) : Nat := s.before.length

/-- Where the segment has ended. -/
def stop (s : NameSegment) : Nat := s.start + s.piece.length

/-- The segment in lower case, character by character. -/
def word (s : NameSegment) : String := String.ofList (s.piece.flatMap lowerChar)

end NameSegment

variable {name before piece rest x y z : List Char} {c d : Char} {afterLower : Bool}

/-! ### Uncut pieces -/

theorem dividesWords_iff : dividesWords c = true ↔ c ∈ nameDividers := by
  have hpoints : ∀ n < 58, 48 ≤ n → Char.ofNat n ∈ nameDividers := by decide
  have hdividers : nameDividers.all dividesWords = true := by decide
  refine ⟨fun h => ?_, List.all_eq_true.1 hdividers c⟩
  simp only [dividesWords, Bool.or_eq_true, beq_iff_eq] at h
  rcases h with (rfl | rfl) | hdigit
  · decide
  · decide
  · simp only [isDigit, Bool.and_eq_true, decide_eq_true_eq, Char.le_def,
      UInt32.le_iff_toNat_le] at hdigit
    rw [← Char.ofNat_toNat c]
    exact hpoints c.toNat (Nat.lt_of_le_of_lt hdigit.2 (by decide)) hdigit.1

theorem isUncut_nil : IsUncut [] := ⟨by simp, .nil⟩

theorem IsUncut.part (h : IsUncut x) (hy : y <:+: x) : IsUncut y :=
  ⟨fun c hc => h.undivided c (hy.subset hc), List.IsChain.infix h.unbroken hy⟩

/-- Two uncut pieces that overlap make up one. -/
theorem IsUncut.append_overlap (h : IsUncut (x ++ y)) (h' : IsUncut (y ++ z)) (hy : y ≠ []) :
    IsUncut (x ++ (y ++ z)) where
  undivided c hc := by
    rcases List.mem_append.1 hc with hc | hc
    · exact h.undivided c (List.mem_append_left y hc)
    · exact h'.undivided c hc
  unbroken := by
    rw [← List.append_assoc]
    exact h.unbroken.append_overlap h'.unbroken hy

/-- A character makes an uncut piece longer unless it is a divider or an upper-case character
behind a lower-case one. -/
theorem isUncut_concat : IsUncut (piece ++ [c]) ↔ IsUncut piece ∧ c ∉ nameDividers
    ∧ ∀ d ∈ piece.getLast?, ¬ (isLower d = true ∧ isUpper c = true) := by
  constructor
  · intro h
    refine ⟨h.part ⟨[], [c], rfl⟩, h.undivided c (by simp), fun d hd => ?_⟩
    exact (List.isChain_append.1 h.unbroken).2.2 d hd c rfl
  · rintro ⟨h, hc, hd⟩
    refine ⟨?_, List.isChain_append.2 ⟨h.unbroken, List.isChain_singleton c, ?_⟩⟩
    · simpa [or_imp, forall_and, hc] using h.undivided
    · simpa using hd

namespace NameSegment

/-- A piece is maximal if one more character at either end brings a cut into it. -/
def ofEnds (before piece after : List Char) (huncut : IsUncut piece) (hne : piece ≠ [])
    (hstart : ∀ c ∈ before.getLast?, ¬ IsUncut (c :: piece))
    (hend : ∀ c ∈ after.head?, ¬ IsUncut (piece ++ [c])) : NameSegment where
  before := before
  piece := piece
  after := after
  isUncut := huncut
  isPiece := hne
  isMaximal {x y} hx hy hlong := by
    constructor
    · rcases List.eq_nil_or_concat x with rfl | ⟨front, c, rfl⟩
      · rfl
      · obtain ⟨more, rfl⟩ := hx
        exact absurd (hlong.part ⟨front, y, by simp⟩) (hstart c (by simp))
    · cases y with
      | nil => rfl
      | cons c back =>
        obtain ⟨more, rfl⟩ := hy
        exact absurd (hlong.part ⟨x, back, by simp⟩) (hend c rfl)

variable {s t : NameSegment}

theorem start_lt_length (s : NameSegment) : s.start < s.name.length := by
  have hpos := List.length_pos_iff.2 s.isPiece
  simp only [start, name, List.length_append]
  omega

/-- A segment that begins within another one has a part in common with it. -/
theorem exists_common (hname : s.name = t.name) (hle : s.start ≤ t.start) (hlt : t.start < s.stop) :
    ∃ skipped common, s.before ++ skipped = t.before ∧ skipped ++ common = s.piece ∧ common ≠ []
      ∧ common ++ s.after = t.piece ++ t.after := by
  obtain ⟨skipped, hbefore⟩ : s.before <+: t.before :=
    List.prefix_of_prefix_length_le ⟨_, hname⟩ ⟨_, rfl⟩ hle
  have hrest : s.piece ++ s.after = skipped ++ (t.piece ++ t.after) := by
    rw [name, name, ← hbefore, List.append_assoc] at hname
    exact List.append_cancel_left hname
  have hlength : skipped.length < s.piece.length := by
    rw [stop, start, start, ← hbefore, List.length_append] at hlt
    omega
  obtain ⟨common, hpiece⟩ : skipped <+: s.piece :=
    List.prefix_of_prefix_length_le ⟨_, hrest.symm⟩ ⟨_, rfl⟩ hlength.le
  refine ⟨skipped, common, hbefore, hpiece, ?_, ?_⟩
  · rintro rfl
    rw [← hpiece, List.append_nil] at hlength
    exact Nat.lt_irrefl _ hlength
  · rw [← hpiece, List.append_assoc] at hrest
    exact List.append_cancel_left hrest

/-- Segments that overlap are one: what they cover together is uncut, and longer than neither. -/
theorem eq_of_overlap (hname : s.name = t.name) (hle : s.start ≤ t.start) (hlt : t.start < s.stop) :
    s = t := by
  obtain ⟨skipped, common, hbefore, hpiece, hcommon, hback⟩ := exists_common hname hle hlt
  have hsuffix : skipped <:+ t.before := ⟨s.before, hbefore⟩
  suffices h : skipped = [] ∧ s.piece = t.piece ∧ s.after = t.after by
    refine NameSegment.ext ?_ h.2.1 h.2.2
    rw [← hbefore, h.1, List.append_nil]
  rcases List.append_eq_append_iff.1 hback with ⟨more, hlong, hafter⟩ | ⟨more, hlong, hafter⟩
  · -- the one that begins later ends later, too
    have hboth : IsUncut (skipped ++ (common ++ more)) :=
      IsUncut.append_overlap (hpiece ▸ s.isUncut) (hlong ▸ t.isUncut) hcommon
    obtain ⟨-, rfl⟩ := s.isMaximal (x := []) List.nil_suffix ⟨_, hafter.symm⟩
      (by rwa [List.nil_append, ← hpiece, List.append_assoc])
    rw [List.append_nil] at hlong hboth
    obtain ⟨rfl, -⟩ := t.isMaximal (y := []) hsuffix List.nil_prefix
      (by rwa [List.append_nil, hlong])
    exact ⟨rfl, hpiece.symm.trans hlong.symm, hafter⟩
  · obtain ⟨rfl, rfl⟩ := t.isMaximal hsuffix ⟨_, hafter.symm⟩
      (by rw [← hlong, hpiece]; exact s.isUncut)
    rw [List.append_nil] at hlong
    exact ⟨rfl, hpiece.symm.trans hlong, hafter.symm⟩

theorem stop_le_start (hname : s.name = t.name) (hlt : s.start < t.start) : s.stop ≤ t.start := by
  by_contra hover
  obtain rfl := eq_of_overlap hname hlt.le (Nat.lt_of_not_le hover)
  exact Nat.lt_irrefl _ hlt

/-- No segment begins at a divider. -/
theorem start_ne_of_divider (hname : s.name = before ++ c :: rest) (hc : c ∈ nameDividers) :
    s.start ≠ before.length := by
  intro hstart
  obtain ⟨rfl, hrest⟩ := List.append_inj hname hstart
  obtain ⟨d, more, hpiece⟩ := List.exists_cons_of_ne_nil s.isPiece
  rw [hpiece, List.cons_append, List.cons.injEq] at hrest
  exact s.isUncut.undivided d (by simp [hpiece]) (hrest.1 ▸ hc)

end NameSegment

/-! ### Listing the segments -/

/-- All segments of a name that begin from one place on and before another, in order. -/
structure AreSegments (name : List Char) (lo hi : Nat) (segments : List NameSegment) : Prop where
  mem_iff : ∀ s, s ∈ segments ↔ s.name = name ∧ lo ≤ s.start ∧ s.start < hi
  ordered : segments.Pairwise (·.start < ·.start)

namespace AreSegments

variable {lo mid hi : Nat} {front back segments : List NameSegment}

theorem nil (h : ∀ s : NameSegment, s.name = name → lo ≤ s.start → hi ≤ s.start) :
    AreSegments name lo hi [] where
  mem_iff s := by
    have hnone : s.name = name → lo ≤ s.start → ¬ s.start < hi := fun hname hlo =>
      Nat.not_lt_of_le (h s hname hlo)
    simpa using hnone
  ordered := .nil

theorem append (hfront : AreSegments name lo mid front) (hback : AreSegments name mid hi back)
    (hlo : lo ≤ mid) (hhi : mid ≤ hi) : AreSegments name lo hi (front ++ back) where
  mem_iff s := by
    have hplace : lo ≤ s.start ∧ s.start < hi
        ↔ lo ≤ s.start ∧ s.start < mid ∨ mid ≤ s.start ∧ s.start < hi := by omega
    rw [List.mem_append, hfront.mem_iff, hback.mem_iff, hplace, and_or_left]
  ordered := by
    refine List.pairwise_append.2 ⟨hfront.ordered, hback.ordered, fun s hs t ht => ?_⟩
    exact Nat.lt_of_lt_of_le ((hfront.mem_iff s).1 hs).2.2 ((hback.mem_iff t).1 ht).2.1

/-- No segment begins between the start of one and its end. -/
theorem singleton (s : NameSegment) : AreSegments s.name s.start s.stop [s] where
  mem_iff t := by
    rw [List.mem_singleton]
    constructor
    · rintro rfl
      exact ⟨rfl, le_rfl, Nat.lt_add_of_pos_right (List.length_pos_iff.2 t.isPiece)⟩
    · rintro ⟨hname, hlo, hlt⟩
      exact (NameSegment.eq_of_overlap hname.symm hlo hlt).symm
  ordered := List.pairwise_singleton _ s

end AreSegments

/-! ### The scan -/

/-- Where the scan stands: behind the front part of the name an uncut piece is open, given in
reverse, which does not go on to the front, and it is known whether the piece ends in lower case. -/
structure IsOpenPiece (before piece : List Char) (afterLower : Bool) : Prop where
  isUncut : IsUncut piece.reverse
  startsThere : ∀ c ∈ before.getLast?, ¬ IsUncut (c :: piece.reverse)
  afterLower_iff : afterLower = true ↔ ∃ c ∈ piece.head?, isLower c = true

namespace IsOpenPiece

theorem empty (h : ∀ c ∈ before.getLast?, c ∈ nameDividers) : IsOpenPiece before [] false where
  isUncut := isUncut_nil
  startsThere c hc huncut := huncut.undivided c (by simp) (h c hc)
  afterLower_iff := by simp

/-- A character that the piece takes. -/
theorem extend (h : IsOpenPiece before piece afterLower) (hc : c ∉ nameDividers)
    (hgoes : ¬ (isUpper c = true ∧ afterLower = true)) :
    IsOpenPiece before (c :: piece) (isLower c) where
  isUncut := by
    rw [List.reverse_cons, isUncut_concat, List.getLast?_reverse]
    refine ⟨h.isUncut, hc, fun d hd hcut => hgoes ⟨hcut.2, ?_⟩⟩
    exact h.afterLower_iff.2 ⟨d, hd, hcut.1⟩
  startsThere d hd huncut := h.startsThere d hd (huncut.part ⟨[], [c], by simp⟩)
  afterLower_iff := by simp

/-- An upper-case character that follows a lower-case one is not taken. -/
theorem not_isUncut (h : IsOpenPiece before piece true) (hupper : isUpper c = true) :
    ¬ IsUncut (piece.reverse ++ [c]) := by
  obtain ⟨d, hd, hlower⟩ := h.afterLower_iff.1 rfl
  intro huncut
  exact (isUncut_concat.1 huncut).2.2 d (by rwa [List.getLast?_reverse]) ⟨hlower, hupper⟩

/-- It opens the next piece. -/
theorem cut (h : IsOpenPiece before piece true) (hc : c ∉ nameDividers)
    (hupper : isUpper c = true) : IsOpenPiece (before ++ piece.reverse) [c] (isLower c) where
  isUncut := by
    rw [List.reverse_singleton, ← List.nil_append [c], isUncut_concat]
    exact ⟨isUncut_nil, hc, by simp⟩
  startsThere e he huncut := by
    obtain ⟨d, hd, hlower⟩ := h.afterLower_iff.1 rfl
    have hlast : (before ++ piece.reverse).getLast? = some d := by
      rw [List.getLast?_append, List.getLast?_reverse, hd, Option.some_or]
    obtain rfl := Option.some.inj (hlast.symm.trans he)
    have hpair : IsUncut ([d] ++ [c]) := huncut
    exact (isUncut_concat.1 hpair).2.2 d rfl ⟨hlower, hupper⟩
  afterLower_iff := by simp

end IsOpenPiece

/-- The pieces, the empty ones left out, are those of the segments of a name from a place on. -/
def ListsFrom (name : List Char) (lo : Nat) (pieces : List (List Char)) : Prop :=
  ∃ segments : List NameSegment, segments.map (·.piece) = pieces.filter (!·.isEmpty)
    ∧ AreSegments name lo name.length segments

theorem listsFrom_nil (name : List Char) : ListsFrom name name.length [] :=
  ⟨[], rfl, .nil fun _ _ hlo => hlo⟩

/-- A divider may be passed over. -/
theorem ListsFrom.of_divider {pieces : List (List Char)} (hname : name = before ++ c :: rest)
    (hc : c ∈ nameDividers) (h : ListsFrom name (before ++ [c]).length pieces) :
    ListsFrom name before.length pieces := by
  obtain ⟨segments, hpieces, hsegments⟩ := h
  refine ⟨segments, hpieces, fun s => ?_, hsegments.ordered⟩
  rw [hsegments.mem_iff, List.length_append, List.length_singleton, Nat.succ_le_iff]
  refine and_congr_right fun hs => and_congr_left fun _ => ⟨Nat.le_of_lt, fun hle => ?_⟩
  exact Nat.lt_of_le_of_ne hle (NameSegment.start_ne_of_divider (hs.trans hname) hc).symm

/-- Where the open piece does not go on, it is the next segment, unless it is empty. -/
theorem IsOpenPiece.listsFrom_cons {pieces : List (List Char)}
    (h : IsOpenPiece before piece afterLower) (hname : name = before ++ (piece.reverse ++ rest))
    (hend : ∀ c ∈ rest.head?, ¬ IsUncut (piece.reverse ++ [c]))
    (hlater : ListsFrom name (before ++ piece.reverse).length pieces) :
    ListsFrom name before.length (piece.reverse :: pieces) := by
  obtain ⟨later, hpieces, hsegments⟩ := hlater
  by_cases hne : piece.reverse = []
  · rw [hne, List.append_nil] at hsegments
    exact ⟨later, by simpa [hne] using hpieces, hsegments⟩
  · let s : NameSegment :=
      .ofEnds before piece.reverse rest h.isUncut hne h.startsThere hend
    have hs : AreSegments name before.length (before ++ piece.reverse).length [s] := by
      rw [List.length_append, hname]
      exact .singleton s
    refine ⟨s :: later, ?_, hs.append hsegments ?_ ?_⟩
    · rw [List.map_cons, hpieces, List.filter_cons_of_pos (by simpa using hne)]
      rfl
    · exact List.IsPrefix.length_le ⟨_, rfl⟩
    · exact List.IsPrefix.length_le ⟨rest, by rw [hname, List.append_assoc]⟩

/-- What the scan finds are the segments from the open piece on. The induction is on what is still
to be scanned. -/
theorem listsFrom_namePieces (h : IsOpenPiece before piece afterLower)
    (hname : name = before ++ (piece.reverse ++ rest)) :
    ListsFrom name before.length (namePieces piece afterLower rest) := by
  induction rest generalizing before piece afterLower with
  | nil =>
    refine h.listsFrom_cons hname (by simp) ?_
    rw [List.append_nil] at hname
    exact hname ▸ listsFrom_nil name
  | cons c rest ih =>
    have hfront : name = before ++ piece.reverse ++ c :: rest := by simp [hname]
    rw [namePieces]
    split
    case isTrue hdivides =>
      have hc := dividesWords_iff.1 hdivides
      refine h.listsFrom_cons hname ?_ (.of_divider hfront hc (ih (.empty ?_) ?_))
      · rintro _ ⟨⟩ huncut
        exact (isUncut_concat.1 huncut).2.1 hc
      · simpa using hc
      · simp [hname]
    case isFalse hdivides =>
      have hc := mt dividesWords_iff.2 hdivides
      split
      case isTrue hcuts =>
        obtain ⟨hupper, rfl⟩ := Bool.and_eq_true_iff.1 hcuts
        refine h.listsFrom_cons hname ?_ (ih (h.cut hc hupper) hfront)
        rintro _ ⟨⟩
        exact h.not_isUncut hupper
      case isFalse hgoes =>
        refine ih (h.extend hc ?_) (by simp [hname])
        rwa [Bool.and_eq_true] at hgoes

/-- The scan keeps all characters but the dividers, in order. -/
theorem flatten_namePieces (piece : List Char) (afterLower : Bool) (rest : List Char) :
    (namePieces piece afterLower rest).flatten
      = piece.reverse ++ rest.filter (· ∉ nameDividers) := by
  induction rest generalizing piece afterLower with
  | nil => simp [namePieces]
  | cons c rest ih =>
    rw [namePieces]
    split
    case isTrue hdivides =>
      rw [List.flatten_cons, ih, List.filter_cons_of_neg]
      · rfl
      · simpa using dividesWords_iff.1 hdivides
    case isFalse hdivides =>
      rw [List.filter_cons_of_pos (by simpa using mt dividesWords_iff.2 hdivides)]
      split
      · rw [List.flatten_cons, ih]
        rfl
      · rw [ih, List.reverse_cons, List.append_assoc, List.singleton_append]

/-- The segments of a name, in order; they hold all its characters but the dividers. -/
theorem exists_segments (name : List Char) :
    ∃ segments : List NameSegment,
      segments.map (·.piece) = (namePieces [] false name).filter (!·.isEmpty)
      ∧ (∀ s, s ∈ segments ↔ s.name = name)
      ∧ segments.Pairwise (·.stop ≤ ·.start)
      ∧ segments.flatMap (·.piece) = name.filter (· ∉ nameDividers) := by
  obtain ⟨segments, hpieces, hsegments⟩ :=
    @listsFrom_namePieces name [] [] name false (.empty (by simp)) rfl
  have hmem (s : NameSegment) : s ∈ segments ↔ s.name = name := by
    rw [hsegments.mem_iff, and_iff_left_iff_imp]
    rintro rfl
    exact ⟨Nat.zero_le _, s.start_lt_length⟩
  refine ⟨segments, hpieces, hmem, ?_, ?_⟩
  · refine hsegments.ordered.imp_of_mem fun {s t} hs ht hlt => ?_
    exact NameSegment.stop_le_start (((hmem s).1 hs).trans ((hmem t).1 ht).symm) hlt
  · rw [List.flatMap_def, hpieces, List.flatten_filter_not_isEmpty, flatten_namePieces]
    rfl

/-! ### Words -/

theorem lowerChar_ne_nil (c : Char) : lowerChar c ≠ [] := by
  rw [lowerChar]
  split
  · simp
  · split
    · simp
    · split <;> simp

theorem NameSegment.word_ne_empty (s : NameSegment) : s.word ≠ "" := by
  obtain ⟨c, more, hpiece⟩ := List.exists_cons_of_ne_nil s.isPiece
  intro hempty
  have hnil : s.piece.flatMap lowerChar = [] := by
    simpa [NameSegment.word] using hempty
  exact lowerChar_ne_nil c (List.flatMap_eq_nil_iff.1 hnil c (by simp [hpiece]))

/-- The words of a name are its segments, each in lower case character by character: all of them
and nothing else, no word empty and none twice, in the order of the first segments that they are.
The segments hold all characters of the name but its dividers, and each of these once. -/
theorem nameWords_are_segments (name : String) :
    (∃ segments : List NameSegment, (∀ s, s ∈ segments ↔ s.name = name.toList)
        ∧ segments.Pairwise (·.stop ≤ ·.start)
        ∧ segments.flatMap (·.piece) = name.toList.filter (· ∉ nameDividers))
      ∧ (∀ word, word ∈ nameWords name ↔ ∃ s : NameSegment, s.name = name.toList ∧ s.word = word)
      ∧ "" ∉ nameWords name
      ∧ (nameWords name).Nodup
      ∧ (nameWords name).Pairwise fun v w => ∃ s : NameSegment, s.name = name.toList ∧ s.word = v
          ∧ ∀ t : NameSegment, t.name = name.toList → t.word = w → s.stop ≤ t.start := by
  obtain ⟨segments, hpieces, hmem, hordered, hkept⟩ := exists_segments name.toList
  have hwords : nameWords name = (segments.map NameSegment.word).eraseDups := by
    rw [nameWords, ← hpieces, List.map_map]
    rfl
  have hword (word : String) :
      word ∈ nameWords name ↔ ∃ s : NameSegment, s.name = name.toList ∧ s.word = word := by
    simp only [hwords, List.mem_eraseDups, List.mem_map, hmem]
  refine ⟨⟨segments, hmem, hordered, hkept⟩, hword, fun hempty => ?_, ?_, ?_⟩
  · obtain ⟨s, -, hs⟩ := (hword "").1 hempty
    exact s.word_ne_empty hs
  · rw [hwords]
    exact nodup_eraseDups _
  · simpa only [hwords, hmem] using pairwise_eraseDups_map (f := NameSegment.word) hordered

/-- A sigma stays what it is at the end of a word, and one character may become two. -/
example : nameWords "ΑΣ_loadİx2_ΑΣ_getURLPath" = ["ασ", "load", "i̇x", "get", "urlpath"] := by
  decide +kernel

end Marginalia.LocalRules
