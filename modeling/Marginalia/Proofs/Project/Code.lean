import Marginalia.Proofs.Project.Clearance
import Marginalia.Proofs.Project.Outcomes
import Marginalia.Proofs.RunManifest

/-!
A run keeps the code. Whatever the services answer and however they fail, whenever the run is asked
to stop and however the tasks take turns, every file holds what it has held before or, if it is a
source with units and sources are written at all, a text that is the same without its blocks. Only
what the run writes besides the sources is excepted, and it must be kept clear of them.
-/

namespace Marginalia

/-- What is left of a content without its blocks, if it is text. -/
def Content.code? (l : Language) : Content → Option String
  | .text s => some (stripText s l).text
  | .bytes _ => none

namespace Project

/-- What the content of a file may become: it stays or, if the sources are written and the file is
one of them, it becomes another text with the same code. A source without units stays. -/
def MayBecome (p : Project) (s : Scan) (t : FileTree) (place : Location) (c c' : Content) : Prop :=
  c' = c ∨ p.config.dryRun = false ∧ (∃ f ∈ s.files, f.IsFoundAt t place)
    ∧ ∀ f ∈ s.files, f.IsFoundAt t place →
      f.units ≠ [] ∧ c = .text f.text ∧ c'.code? f.file.language = c.code? f.file.language

instance (p : Project) (s : Scan) (t : FileTree) (place : Location) (c c' : Content) :
    Decidable (p.MayBecome s t place c c') := inferInstanceAs (Decidable (_ ∨ _))

section

variable {p : Project} {s : Scan} {t t' : FileTree} {place : Location} {n : Nat} {c : Content}

/-- When all files have been worked on, everything is intact. -/
theorem IsClear.intact {w w' : World} {ended : List Ended} (h : p.IsClear s w.tree)
    (hscan : p.scan w = .ok s) (hedits : p.workshop.EditsNothing)
    (hsteps : Crew.Steps p.workshop p.config.parallelism (.start (workList s), w)
      (⟨[], [], ended⟩, w')) :
    (p.outset s w.tree).Intact w'.tree := by
  obtain ⟨stage, htracks, -⟩ := h.outcomes hscan hedits hsteps
  exact htracks.intact

/-- What is intact holds what it may. -/
theorem mayBecome_of_intact (ht : t.IsProper) (hscan : p.config.scan t = .ok s)
    (h : (p.outset s t).Intact t') (hfile : t.at? place = some (.file n c))
    (hout : ¬p.IsOutput s t place) :
    ∃ n' c', t'.at? place = some (.file n' c') ∧ p.MayBecome s t place c c' := by
  by_cases hworked : ∃ f, (p.outset s t).worked f ∧ f.StandsAt t place
  · obtain ⟨f, hf, hstands⟩ := hworked
    obtain ⟨m, hm⟩ := hstands.file
    obtain ⟨rfl, rfl⟩ := Entry.file.inj (Option.some.inj (hm.symm.trans hfile))
    obtain ⟨n', text, htext, hkeeps⟩ := h.work f place hf hstands
    refine ⟨n', .text text, htext, ?_⟩
    rcases hkeeps with rfl | ⟨hdry, hsame⟩
    · exact .inl rfl
    · refine .inr ⟨hdry, ⟨f, hf.1, hstands.isFoundAt⟩, fun g hg hplace => ?_⟩
      obtain rfl := eq_of_isFoundAt ht hscan hf.1 hg hf.2 hstands hplace
      exact ⟨hf.2, rfl, congrArg some hsame⟩
  · refine ⟨n, c, h.kept place n c hfile (fun hindex => hout (.index hindex hfile)) ?_, .inl rfl⟩
    refine fun f hf => ⟨fun hstands => hworked ⟨f, hf, hstands⟩, fun hhides => ?_⟩
    obtain ⟨path, hpath, hleads⟩ := exists_hiddenPath hf hhides
    exact hout (.temporary (List.mem_cons_of_mem _ hpath) hleads)

/-- Where the file beside the manifest is to stand there is no other file under another name. -/
theorem ne_besideManifest_of_intact (hclear : p.IsClear s t) (h : (p.outset s t).Intact t')
    (hfile : t'.at? place = some (.file n c)) (hout : ¬p.IsOutput s t place) {q : Location}
    (hq : t.LeadsTo (besideManifest p.config.manifestPath) q) (c' : Content) :
    t'.at? q ≠ some (.file n c') := by
  intro hthere
  have hne : place ≠ q := fun hplace => hout (.temporary List.mem_cons_self (hplace ▸ hq))
  rcases h.origin q n c' hthere with ⟨c₀, hq₀⟩ | ⟨-, halone⟩
  · rcases h.origin place n c hfile with ⟨c₁, hplace₀⟩ | ⟨-, halone⟩
    · have hindex : p.index ≠ .file n := fun hindex => hout (.index hindex hplace₀)
      exact hne (hclear.alone _ List.mem_cons_self q hq n c₀ hq₀ hindex place c₁ hplace₀)
    · exact hne (halone q c' hthere).symm
  · exact hne (halone place c hfile)

/-- Writing the manifest leaves alone what is intact. -/
theorem at?_conclude (hclear : p.IsClear s t) {w : World} (h : (p.outset s t).Intact w.tree)
    (hfile : w.tree.at? place = some (.file n c)) (hout : ¬p.IsOutput s t place)
    (outcomes : List FileOutcome) :
    (p.conclude s outcomes w).2.tree.at? place = some (.file n c) := by
  have hleads {path : String} {q : Location} (hq : w.tree.LeadsTo path q) : t.LeadsTo path q :=
    hq.of_growsInto h.ways.forth
  rw [tree_conclude]
  refine at?_writeManifest hfile (h.numbered place n c hfile)
    (fun hpath => hout (.manifest (hleads hpath)))
    (fun hpath => hout (.temporary List.mem_cons_self (hleads hpath))) (fun q target hq hlink => ?_)
    fun q c' hq => ne_besideManifest_of_intact hclear h hfile hout (hleads hq) c'
  exact hclear.link _ List.mem_cons_self q (hleads hq) target
    ((h.ways.forth.link q target).1 hlink)

/-- Whatever a run comes to, every file that it does not write besides the sources holds what it has
held, or a text that is the same without its blocks if it is a source with units. If the tree cannot
be scanned nothing is changed. -/
theorem run_keeps_code (hedits : p.workshop.EditsNothing) {w w' : World}
    {result : Except RunError RunReport} (h : p.RunsTo w (result, w')) :
    (∀ e, p.scan w = .error e → w' = w) ∧
    ∀ s, p.scan w = .ok s → p.IsClear s w.tree → ∀ place n c,
      w.tree.at? place = some (.file n c) → ¬p.IsOutput s w.tree place →
      ∃ n' c', w'.tree.at? place = some (.file n' c') ∧ p.MayBecome s w.tree place c c' := by
  generalize hx : (result, w') = x at h
  cases h with
  | unscanned hscan =>
    obtain ⟨-, rfl⟩ := Prod.mk.inj hx
    exact ⟨fun e _ => rfl, fun s hs => by cases hs.symm.trans hscan⟩
  | @concluded s ended w₁ hscan hworked =>
    refine ⟨fun e he => (by cases he.symm.trans hscan), ?_⟩
    intro s' hs' hclear place n c hfile hout
    obtain rfl := Except.ok.inj (hs'.symm.trans hscan)
    have hintact := hclear.intact hscan hedits hworked
    obtain ⟨n', c', hfile', hbecome⟩ := mayBecome_of_intact hclear.proper hscan hintact hfile hout
    refine ⟨n', c', ?_, hbecome⟩
    have hat := at?_conclude hclear hintact hfile' hout (Crew.outcomes ⟨[], [], ended⟩)
    rwa [← hx] at hat

end

/-- A project without services, which keeps an index. -/
def indexingProject : Project where
  config := { root := "/p", manifest := some "m.json" }
  enricher := ⟨none, none⟩
  index := .file 0

theorem editsNothing_indexingProject : indexingProject.workshop.EditsNothing :=
  ⟨fun _ h => (by cases h), fun _ h => (by cases h), fun _ h => (by cases h)⟩

/-- A text with a stray end of a block. -/
def strayEndText : String := "# --- END MADL ---\ndef f():\n  pass\n"

/-- The world of a source with a stray end of a block, of the index and of two other files. -/
def strayEndWorld (beside : Location × Entry) : World := indexingProject.startWorld {
  entries := [(["p"], .directory), (["p", "i.jsonl"], .file 0 (.text "")),
    (["p", "a.py"], .file 1 (.text strayEndText)), (["p", "notes.txt"], .file 2 (.text "kept\n")),
    beside]
  nextSerial := 4
  workingDirectory := [] }

/-- The world in which a hidden file has been left over. -/
def leftOverWorld : World := strayEndWorld (["p", ".a.py.madl.tmp"], .file 3 (.text "left over"))

theorem run_keeps_code_strayEnd : indexingProject.workshop.EditsNothing ∧ ∃ s result w',
    indexingProject.RunsTo leftOverWorld (result, w') ∧ indexingProject.scan leftOverWorld = .ok s
      ∧ indexingProject.IsClear s leftOverWorld.tree
      ∧ ¬indexingProject.IsOutput s leftOverWorld.tree ["p", "a.py"]
      ∧ ∃ n' c', w'.tree.at? ["p", "a.py"] = some (.file n' c') ∧ c' ≠ .text strayEndText
        ∧ indexingProject.MayBecome s leftOverWorld.tree ["p", "a.py"] (.text strayEndText) c' := by
  have hruns := indexingProject.runsTo_run leftOverWorld (by decide)
  have hcheck : (match indexingProject.scan leftOverWorld with
      | .ok s => indexingProject.checkClear s leftOverWorld.tree
        && indexingProject.isApart s leftOverWorld.tree ["p", "a.py"]
      | .error _ => false) = true := by decide +kernel
  have hbefore : leftOverWorld.tree.at? ["p", "a.py"] = some (.file 1 (.text strayEndText)) := by
    decide +kernel
  have hafter : (indexingProject.run leftOverWorld).2.tree.at? ["p", "a.py"]
      = some (.file 3 (.text "def f():\n  pass\n")) := by decide +kernel
  cases hrun : indexingProject.run leftOverWorld with
  | mk result w' =>
  rw [hrun] at hruns hafter
  cases hscan : indexingProject.scan leftOverWorld with
  | error e =>
    rw [hscan] at hcheck
    cases hcheck
  | ok s =>
    rw [hscan] at hcheck
    obtain ⟨hclear, hapart⟩ := Bool.and_eq_true_iff.1 hcheck
    have hclear := isClear_of_checkClear hclear
    have hout := not_isOutput_of_isApart hapart
    obtain ⟨n', c', hat, hbecome⟩ := (run_keeps_code editsNothing_indexingProject hruns).2 s hscan
      hclear ["p", "a.py"] 1 (.text strayEndText) hbefore hout
    refine ⟨editsNothing_indexingProject, s, result, w', hruns, rfl, hclear, hout, n', c', hat, ?_,
      hbecome⟩
    obtain ⟨-, rfl⟩ := Entry.file.inj (Option.some.inj (hafter.symm.trans hat))
    decide

/-! ### Other names of temporary files -/

/-- What the run writes besides the sources is apart from them, and still the run changes a file
that it is not to change. -/
structure Strays (p : Project) (w : World) (place : Location) : Prop where
  edits : p.workshop.EditsNothing
  valid : p.config.check w.tree = .ok ()
  changes : ∃ s result w', p.scan w = .ok s ∧ p.RunsTo w (result, w')
    ∧ (∀ f ∈ s.files, ∀ q, f.IsFoundAt w.tree q → ¬p.IsOutput s w.tree q)
    ∧ ¬p.IsOutput s w.tree place
    ∧ ∃ n c n' c', w.tree.at? place = some (.file n c) ∧ w'.tree.at? place = some (.file n' c')
      ∧ ¬p.MayBecome s w.tree place c c'

/-- The run that is not interrupted strays. -/
def checkStrays (p : Project) (w : World) (place : Location) : Bool :=
  p.config.check w.tree == .ok () && 0 < p.config.parallelism
    && match p.scan w with
      | .error _ => false
      | .ok s => p.areApart s w.tree && p.isApart s w.tree place
        && match w.tree.at? place, (p.run w).2.tree.at? place with
          | some (.file _ c), some (.file _ c') => !decide (p.MayBecome s w.tree place c c')
          | _, _ => false

theorem strays_of_checkStrays {p : Project} {w : World} {place : Location}
    (hedits : p.workshop.EditsNothing) (h : p.checkStrays w place = true) : p.Strays w place := by
  simp only [checkStrays, Bool.and_eq_true, decide_eq_true_eq] at h
  obtain ⟨⟨hvalid, hplaces⟩, hscan⟩ := h
  split at hscan
  · cases hscan
  · rename_i s hs
    simp only [Bool.and_eq_true] at hscan
    obtain ⟨⟨hapart, hplace⟩, hchange⟩ := hscan
    refine ⟨hedits, by simpa using hvalid, s, _, _, hs, p.runsTo_run w hplaces,
      fun f hf q hq => not_isOutput_of_areApart hapart hf hq, not_isOutput_of_isApart hplace, ?_⟩
    split at hchange
    · rename_i n c n' c' hbefore hafter
      exact ⟨n, c, n', c', hbefore, hafter, by simpa using hchange⟩
    · cases hchange

/-- A run writes to files elsewhere, if there is a link or another name of a file where a temporary
file is to stand. -/
theorem run_strays :
    indexingProject.Strays (strayEndWorld (["p", ".a.py.madl.tmp"], .link "notes.txt"))
        ["p", "notes.txt"]
      ∧ indexingProject.Strays (strayEndWorld (["p", ".a.py.madl.tmp"], .file 2 (.text "kept\n")))
        ["p", "notes.txt"]
      ∧ indexingProject.Strays (strayEndWorld (["p", "m.json.tmp"], .link "notes.txt"))
        ["p", "notes.txt"] := by
  have hedits := editsNothing_indexingProject
  refine ⟨strays_of_checkStrays hedits ?_, strays_of_checkStrays hedits ?_,
    strays_of_checkStrays hedits ?_⟩ <;> decide +kernel

end Project

end Marginalia
