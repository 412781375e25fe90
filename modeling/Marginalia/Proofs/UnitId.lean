import Marginalia.Proofs.CallGraph
import Marginalia.Proofs.Header.Names

/-!
Identifiers. The parts of an identifier are not marked off from its file, which may hold any
characters, but neither a scope nor a name has a colon in it, so the parts can be read off from the
back. Since no two units of a file start on one line, no two units of different files, or of one,
share an identifier, and the graph of a scan can always be built.
-/

namespace Marginalia

open Text

/-! ### Reading an identifier -/

theorem cut_inj {front front' tail tail' : List Char} (htail : ':' ∉ tail) (htail' : ':' ∉ tail')
    (h : front ++ ':' :: ':' :: tail = front' ++ ':' :: ':' :: tail') :
    front = front' ∧ tail = tail' := by
  have hcut := lastQualifier?_append front htail
  rw [h, lastQualifier?_append front' htail'] at hcut
  exact ⟨(Prod.mk.inj (Option.some.inj hcut)).1.symm, (Prod.mk.inj (Option.some.inj hcut)).2.symm⟩

/-- The text of an identifier, with its parts one behind the other. -/
theorem toList_compose (file : String) (scope : Option String) (name : String) (line : Nat) :
    (UnitId.compose file scope name line).text.toList
      = ((("file://".toList ++ file.toList) ++ ':' :: ':' :: (scope.getD moduleScope).toList)
        ++ ':' :: ':' :: name.toList) ++ ':' :: ':' :: ("line".toList ++ line.repr.toList) := by
  simp [UnitId.compose, toString]

theorem not_mem_lineNumber (line : Nat) : ':' ∉ "line".toList ++ line.repr.toList := by
  intro hc
  rcases List.mem_append.1 hc with hc | hc
  · exact absurd hc (by decide)
  · rw [Nat.toList_repr] at hc
    exact absurd (Nat.isDigit_of_mem_toDigits (by decide) (by decide) hc) (by decide)

theorem isPlain_label {scope : Option String} (h : ∀ s ∈ scope, IsPlain s) :
    IsPlain (scope.getD moduleScope) := by
  cases scope with
  | none => unfold IsPlain; decide
  | some s => exact h s rfl

theorem toList_repr_inj {m n : Nat} (h : m.repr.toList = n.repr.toList) : m = n := by
  rw [Nat.toList_repr, Nat.toList_repr] at h
  rw [← Nat.ofDigitChars_ten_toDigits (n := m), h, Nat.ofDigitChars_ten_toDigits]

/-- An identifier with plain names tells its parts. -/
theorem UnitId.compose_inj {file file' name name' : String} {scope scope' : Option String}
    {line line' : Nat} (hscope : ∀ s ∈ scope, IsPlain s) (hscope' : ∀ s ∈ scope', IsPlain s)
    (hname : IsPlain name) (hname' : IsPlain name')
    (h : compose file scope name line = compose file' scope' name' line') :
    file = file' ∧ scope.getD moduleScope = scope'.getD moduleScope ∧ name = name'
      ∧ line = line' := by
  have htext := congrArg (·.text.toList) h
  simp only [toList_compose] at htext
  obtain ⟨htext, hline⟩ := cut_inj (not_mem_lineNumber line) (not_mem_lineNumber line') htext
  obtain ⟨htext, hname⟩ := cut_inj hname hname' htext
  obtain ⟨htext, hlabel⟩ := cut_inj (isPlain_label hscope) (isPlain_label hscope') htext
  exact ⟨String.toList_inj.1 (List.append_cancel_left htext), String.toList_inj.1 hlabel,
    String.toList_inj.1 hname, toList_repr_inj (List.append_cancel_left hline)⟩

/-! ### The names of units -/

/-- The open scopes have plain names. -/
def ArePlain (scopes : List OpenScope) : Prop := ∀ s ∈ scopes, IsPlain s.name

theorem ArePlain.closeScopes {scopes : List OpenScope} (h : ArePlain scopes) (l : Language)
    (line : Line) : ArePlain (closeScopes l line scopes) := by
  have hdrop : ∀ p : OpenScope → Bool, ArePlain (scopes.dropWhile p) := fun p s hs =>
    h s ((List.dropWhile_suffix p).mem hs)
  unfold Marginalia.closeScopes
  simp only
  split
  · exact hdrop _
  · split
    · exact h
    · split
      · next innermost outer heq =>
        have hall := heq ▸ hdrop _
        split
        · exact fun s hs => hall s (List.mem_cons_of_mem _ hs)
        · exact hall
      · exact fun s hs => absurd hs List.not_mem_nil

theorem ArePlain.openScope {scopes : List OpenScope} (h : ArePlain scopes) (l : Language)
    (line : Line) : ArePlain (openScope l line scopes) := by
  unfold Marginalia.openScope
  split
  · next name hname =>
    split
    · exact h
    · exact List.forall_mem_cons.2 ⟨isPlain_of_scopeOfLine? hname, h⟩
  · exact h

theorem ArePlain.enterLine {l : Language} {scopes : List OpenScope} (line : Line)
    (h : ArePlain scopes) : ArePlain (enterLine l scopes line).1 := by
  unfold Marginalia.enterLine
  split
  · exact h
  · split
    · exact (h.closeScopes l line).openScope l line
    · exact h.closeScopes l line

/-- A line opens a unit with a plain name in a plain scope. -/
theorem ArePlain.opened {l : Language} {scopes : List OpenScope} (hscopes : ArePlain scopes)
    {line : Line} {h : Header} {scope : Option String}
    (hopened : (Marginalia.enterLine l scopes line).2 = some (h, scope)) :
    IsPlain h.name ∧ ∀ s ∈ scope, IsPlain s := by
  unfold Marginalia.enterLine at hopened
  split at hopened
  · cases hopened
  · split at hopened
    · cases hopened
    · next h' hheader =>
      simp only at hopened
      split at hopened
      · cases hopened
      · obtain ⟨rfl, rfl⟩ := Prod.mk.inj (Option.some.inj hopened)
        obtain ⟨hname, howner, -⟩ := Header.isPlain_of_ofLine? hheader
        refine ⟨hname, fun s hs => ?_⟩
        unfold scopeOf at hs
        split at hs
        · next owner howner' => exact howner s (howner'.trans hs)
        · obtain ⟨innermost, hinnermost, rfl⟩ := Option.map_eq_some_iff.1 hs
          exact hscopes.closeScopes l line innermost (List.mem_of_mem_head? hinnermost)

/-- A unit of a file is identified by its parts, none of which but the file has a colon in it. -/
structure CodeUnit.IsIdentified (u : CodeUnit) (file : String) : Prop where
  id : u.id = .compose file u.scope u.name u.range.firstLine
  name : IsPlain u.name
  scope : ∀ s ∈ u.scope, IsPlain s

theorem isIdentified_of_mem_segment {o : SegmentOptions} {text file : String} {l : Language}
    {u : CodeUnit} (hu : u ∈ segment o text file l) : u.IsIdentified file := by
  obtain ⟨scopes, line, h, scope, start, body, hscopes, hopened, hunit⟩ :=
    exists_unitAt?_of_mem_unitsFrom (P := ArePlain) ArePlain.enterLine
      (fun s hs => absurd hs List.not_mem_nil) hu
  obtain ⟨hname, hscope⟩ := hscopes.opened hopened
  rw [unitAt?_eq] at hunit
  split at hunit
  · cases hunit
  · obtain rfl := Option.some.inj hunit
    exact ⟨rfl, hname, fun s hs => hscope s (Option.filter_eq_some_iff.1 hs).1⟩

theorem CodeUnit.IsIdentified.of_id_eq {u v : CodeUnit} {file file' : String}
    (hu : u.IsIdentified file) (hv : v.IsIdentified file') (h : u.id = v.id) :
    file = file' ∧ u.range.start = v.range.start := by
  rw [hu.id, hv.id] at h
  obtain ⟨hfile, -, -, hline⟩ := UnitId.compose_inj hu.scope hv.scope hu.name hv.name h
  exact ⟨hfile, Nat.succ.inj hline⟩

/-! ### The units of several files -/

/-- A source text with its path. -/
structure SourceText where
  path : String
  language : Language
  text : String

/-- The units of a source text. -/
def SourceText.units (o : SegmentOptions) (s : SourceText) : List CodeUnit :=
  segment o s.text s.path s.language

theorem nodup_ids_segment (o : SegmentOptions) (text file : String) (l : Language) :
    ((segment o text file l).map (·.id)).Nodup := by
  refine List.pairwise_map.2 ((pairwise_start_unitsFrom [] 0 0 _).imp_of_mem ?_)
  intro u v hu hv hlt heq
  have hstart := ((isIdentified_of_mem_segment hu).of_id_eq (isIdentified_of_mem_segment hv) heq).2
  exact absurd hstart hlt.ne

/-- No two units of texts with different paths share an identifier, so their graph can be built. -/
theorem nodup_ids_of_distinct_paths (o : SegmentOptions) {sources : List SourceText}
    (hpaths : (sources.map (·.path)).Nodup) :
    ((sources.flatMap (·.units o)).map (·.id)).Nodup
      ∧ ∃ built, CallGraph.build (sources.flatMap (·.units o)) = .ok built := by
  have hids : ((sources.flatMap (·.units o)).map (·.id)).Nodup := by
    rw [List.map_flatMap, List.nodup_flatMap]
    refine ⟨fun s _ => nodup_ids_segment o s.text s.path s.language, ?_⟩
    refine (List.pairwise_map.1 hpaths).imp fun {s s'} hne id hid hid' => hne ?_
    obtain ⟨u, hu, rfl⟩ := List.mem_map.1 hid
    obtain ⟨v, hv, heq⟩ := List.mem_map.1 hid'
    exact ((isIdentified_of_mem_segment hu).of_id_eq (isIdentified_of_mem_segment hv) heq.symm).1
  refine ⟨hids, ?_⟩
  obtain ⟨g, hg, -⟩ := CallGraph.exists_ofUnits hids
  exact ⟨_, by rw [CallGraph.build, hg]; rfl⟩

/-- A scope called like the label of units without one, and a path that reads like an identifier. -/
theorem nodup_ids_of_distinct_paths_module :
    let text := "class module:\n  def f(self):\n    pass\ndef f():\n  pass\n"
    let sources : List SourceText :=
      [⟨"a::b.py", .python, text⟩, ⟨"a::b.py::module::f::line2", .python, text⟩]
    (sources.map (·.path)).Nodup
      ∧ (sources.flatMap (·.units {})).map (·.id.text)
        = ["file://a::b.py::module::f::line2", "file://a::b.py::module::f::line4",
          "file://a::b.py::module::f::line2::module::f::line2",
          "file://a::b.py::module::f::line2::module::f::line4"]
      ∧ ((sources.flatMap (·.units {})).map (·.id)).Nodup
      ∧ ∃ built, CallGraph.build (sources.flatMap (·.units {})) = .ok built := by
  intro text sources
  have hpaths : (sources.map (·.path)).Nodup := by decide
  exact ⟨hpaths, by decide +kernel, nodup_ids_of_distinct_paths {} hpaths⟩

end Marginalia
