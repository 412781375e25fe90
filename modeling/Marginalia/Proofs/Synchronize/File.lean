import Marginalia.Proofs.Tree.Replacing
import Marginalia.Synchronize.File

/-!
Files change as a whole or not at all. A file that could be read, and beside which the new text
could be written, can be replaced by that text, so an operation fails before it has changed
anything. What it changes when it succeeds is the file alone, as long as nothing else stands at the
temporary path beside it: a text that is written there goes through a link.
-/

namespace Marginalia

namespace FileTree

variable {t written moved : FileTree} {path beside text : String} {old new : Destination}

/-- The place of the temporary file by way of which a text is put in the place of a file. -/
def temporaryPlace? (t : FileTree) (path : String) : Option Location :=
  (besidePath? path).bind t.placeOf?

/-- Where the temporary file of a path is to stand there is no link, and no file with another name
as well. -/
def OwnsTemporary (t : FileTree) (path : String) : Prop :=
  ∀ place, t.temporaryPlace? path = some place → t.IsAlone place

/-- Nothing is different but where a path leads, and no temporary file is left. -/
structure Replaced (t : FileTree) (path : String) (t' : FileTree) : Prop where
  elsewhere : ∀ q, t.placeOf? path ≠ some q → t.temporaryPlace? path ≠ some q →
    t'.at? q = t.at? q
  temporary : ∀ q, t.temporaryPlace? path = some q → t'.at? q = none

theorem temporaryPlace?_eq (hbeside : besidePath? path = some beside)
    (hold : t.locateLast beside = .ok old) : t.temporaryPlace? path = some old.place := by
  rw [temporaryPlace?, hbeside]
  exact placeOf?_eq hold

/-- The temporary file stands beside the file, and not in its place. -/
theorem place_beside_ne (hbeside : besidePath? path = some beside)
    (hold : t.locateLast beside = .ok old) (hnew : t.locateLast path = .ok new)
    (hend : Path.ending path ≠ .dots) : old.place ≠ new.place := by
  obtain ⟨front, name, hnames, hup, hnames', hup', hend', habsolute⟩ :=
    Path.names_of_besidePath? hbeside
  obtain ⟨place, hnewPlace, holdPlace⟩ := places_of_locateLast hnames hnames' hup hup' hend
    (by simp [hend']) habsolute hnew hold
  rw [hnewPlace, holdPlace]
  intro hsame
  -- the temporary name is longer than the name
  have hname : Path.besideName name = name := by simpa using hsame
  have hlength := congrArg (·.toList.length) hname
  simp only [Path.toList_besideName, List.length_cons, List.length_append] at hlength
  omega

theorem ending_beside (hbeside : besidePath? path = some beside)
    (hold : t.locateLast beside = .ok old) : old.ending = .name := by
  obtain ⟨-, -, -, -, -, -, hend, -⟩ := Path.names_of_besidePath? hbeside
  rw [ending_of_locateLast hold, hend]

/-- A text that has been written beside a file can be moved to its place. -/
theorem exists_rename_of_readText {before : String} (hread : t.readText path = .ok before)
    (hbeside : besidePath? path = some beside) (hwrite : t.writeText beside text = .ok written) :
    ∃ moved, written.rename beside path = .ok moved := by
  obtain ⟨hend, place, n, hlocate, hfile⟩ := locate_of_readText hread
  obtain ⟨new, hnew, x, hx, hne⟩ := exists_locateLast hlocate hfile
  obtain ⟨old, -, hold, -, y, hy, hney⟩ := locateLast_of_writeText hwrite
  obtain ⟨d, m, -, hwrites⟩ := writeText_eq_ok hwrite
  refine exists_rename hold (go_mono hwrites.sameWays.forth hnew) (ending_beside hbeside hold)
    ((ending_of_locateLast hnew).trans hend) hy hney fun hdirectory => hne ?_
  exact Option.some.inj (hx.symm.trans (hwrites.sameWays.back.directory _ hdirectory))

/-- What has been written beside a file and moved to its place. -/
structure Replaces (t : FileTree) (old new : Destination) (text : String) (moved : FileTree) :
    Prop where
  room : t.at? new.place ≠ some .directory
  ending : new.ending = .name
  different : old.place ≠ new.place
  target : ∃ n, moved.at? new.place = some (.file n (.text text))
  temporary : moved.at? old.place = none
  elsewhere : ∀ q, q ≠ old.place → q ≠ new.place → moved.at? q = t.at? q
  workingDirectory : moved.workingDirectory = t.workingDirectory

theorem replaces_of_rename (hnumbered : ∀ q n c, t.at? q = some (.file n c) → n < t.nextSerial)
    (hown : t.OwnsTemporary path) (hbeside : besidePath? path = some beside)
    (hwrite : t.writeText beside text = .ok written)
    (hrename : written.rename beside path = .ok moved) :
    ∃ old new, t.locateLast beside = .ok old ∧ t.locateLast path = .ok new
      ∧ t.at? old.place ≠ some .directory ∧ t.Replaces old new text moved := by
  obtain ⟨old, hold, hold', hdirectory, -⟩ := locateLast_of_writeText hwrite
  obtain ⟨⟨n, hn⟩, helsewhere, hways⟩ := writeText_alone hnumbered hwrite hold
    (hown _ (temporaryPlace?_eq hbeside hold))
  obtain ⟨d, new, x, hd, hnew', hmoves, hdir⟩ := moves_of_rename hrename
  obtain rfl := Except.ok.inj (hold'.symm.trans hd)
  have hnew := go_mono hways.back hnew'
  have hend := (ending_of_rename hrename hold' hnew').2
  have hne := place_beside_ne hbeside hold hnew (by
    rw [← ending_of_locateLast hnew, hend]
    simp)
  refine ⟨old, new, hold, hnew, hdirectory, ?_, hend, hne, ⟨n, ?_⟩, hmoves.source hne,
    fun q ho hn => ?_, hdir.trans hways.forth.workingDirectory⟩
  · exact fun hroom => hmoves.room (hways.forth.directory _ hroom)
  · rw [hmoves.target, ← hmoves.here, hn]
  · rw [hmoves.elsewhere q ho hn, helsewhere q ho]

theorem Replaces.replaced (h : t.Replaces old new text moved)
    (hbeside : besidePath? path = some beside) (hold : t.locateLast beside = .ok old)
    (hnew : t.locateLast path = .ok new) : t.Replaced path moved where
  elsewhere q hq hq' := by
    rw [placeOf?_eq hnew] at hq
    rw [temporaryPlace?_eq hbeside hold] at hq'
    exact h.elsewhere q (fun ho => hq' (ho ▸ rfl)) fun hn => hq (hn ▸ rfl)
  temporary q hq := by
    rw [temporaryPlace?_eq hbeside hold] at hq
    exact Option.some.inj hq ▸ h.temporary

/-- A path that a text was read by leads to the text that has come to its place. -/
theorem Replaces.readText (h : t.Replaces old new text moved) (ht : t.IsGrounded)
    (hdirectory : t.at? old.place ≠ some .directory) (halone : t.IsAlone old.place)
    (hnew : t.locateLast path = .ok new) {before : String}
    (hread : t.readText path = .ok before) : moved.readText path = .ok text := by
  obtain ⟨n, hfile⟩ := h.target
  have hsame : ∀ q, ¬(q = old.place ∨ q = new.place) → moved.at? q = t.at? q := fun q hq =>
    h.elsewhere q (fun ho => hq (.inl ho)) fun hn => hq (.inr hn)
  have hlast : moved.locateLast path = .ok new := by
    refine locateLast_stays ht h.workingDirectory hsame ?_ ?_ hnew hread
    · rintro q (rfl | rfl)
      · exact ⟨hdirectory, by simp [h.temporary]⟩
      · exact ⟨h.room, by simp [hfile]⟩
    · rintro q target (rfl | rfl) hlink
      · exact absurd hlink (halone.1 target)
      · rfl
  have hend : (⟨new.place, .name⟩ : Destination) = new := by rw [← h.ending]
  exact readText_of_locateLast (hend ▸ hlast) hfile

end FileTree

open FileTree

variable {t : FileTree} {path : String}

/-! ### What an operation can come to -/

/-- What putting a text in the place of a file can come to. -/
theorem commit_cases (t : FileTree) (path text : String) :
    (∃ e, commit t path text = (.error e, t))
      ∨ ∃ beside written, besidePath? path = some beside
        ∧ t.writeText beside text = .ok written
        ∧ ((∃ moved, written.rename beside path = .ok moved
            ∧ commit t path text = (.ok (), moved))
          ∨ ∃ e, written.rename beside path = .error e
            ∧ commit t path text
              = (.error (.file e), (written.remove beside).toOption.getD written)) := by
  unfold commit replaceBy
  cases hbeside : besidePath? path with
  | none => exact .inl ⟨_, rfl⟩
  | some beside =>
    cases hwrite : t.writeText beside text with
    | error e => exact .inl ⟨_, by simp only [hwrite]; rfl⟩
    | ok written =>
      refine .inr ⟨beside, written, rfl, hwrite, ?_⟩
      cases hrename : written.rename beside path with
      | ok moved => exact .inl ⟨moved, rfl, by simp only [hwrite, hrename]; rfl⟩
      | error e => exact .inr ⟨e, rfl, by simp only [hwrite, hrename]; rfl⟩

/-- What an operation on a file can come to: it fails and nothing is changed, it has nothing to
change, or it has written a text beside the file and moved it to its place. -/
theorem renewFile_cases (t : FileTree) (path : String) (dryRun : Bool)
    (renew : String → SyncOutcome) :
    (∃ e, renewFile t path dryRun renew = (.error e, t))
      ∨ ∃ text, t.readText path = .ok text
        ∧ ((dryRun = true ∨ (renew text).changed = false)
            ∧ renewFile t path dryRun renew = (.ok (renew text), t)
          ∨ dryRun = false ∧ (renew text).changed = true
            ∧ ∃ beside written moved, besidePath? path = some beside
              ∧ t.writeText beside (renew text).text = .ok written
              ∧ written.rename beside path = .ok moved
              ∧ renewFile t path dryRun renew = (.ok (renew text), moved)) := by
  unfold renewFile
  cases hread : t.readText path with
  | error e => exact .inl ⟨_, rfl⟩
  | ok text =>
    simp only
    by_cases hidle : dryRun = true ∨ (renew text).changed = false
    · refine .inr ⟨text, rfl, .inl ⟨hidle, ?_⟩⟩
      rcases hidle with hidle | hidle <;> simp [commitOutcome, hidle, Except.map]
    · obtain ⟨hwet, hchanged⟩ : dryRun = false ∧ (renew text).changed = true := by
        simpa using hidle
      have houtcome : commitOutcome t path (renew text) dryRun
          = commit t path (renew text).text := by simp [commitOutcome, hwet, hchanged]
      rw [houtcome]
      rcases commit_cases t path (renew text).text with
        ⟨e, hcommit⟩ | ⟨beside, written, hbeside, hwrite, hcommit⟩
      · exact .inl ⟨e, by rw [hcommit]; rfl⟩
      · rcases hcommit with ⟨moved, hrename, hcommit⟩ | ⟨e, hrename, -⟩
        · exact .inr ⟨text, rfl, .inr ⟨hwet, hchanged, beside, written, moved, hbeside, hwrite,
            hrename, by rw [hcommit]; rfl⟩⟩
        · obtain ⟨moved, hmoved⟩ := exists_rename_of_readText hread hbeside hwrite
          cases hrename.symm.trans hmoved

/-! ### Files that change as a whole -/

/-- An operation on a file has done all of its work or none. -/
structure IsAtomic (t : FileTree) (path : String) (dryRun : Bool) (renew : String → SyncOutcome)
    (r : Except SyncError SyncOutcome × FileTree) : Prop where
  error : ∀ e, r.1 = .error e → r.2 = t
  outcome : ∀ o, r.1 = .ok o → ∃ text, t.readText path = .ok text ∧ o = renew text
  idle : ∀ o, r.1 = .ok o → dryRun = true ∨ o.changed = false → r.2 = t
  written : ∀ o, r.1 = .ok o → dryRun = false → o.changed = true → t.OwnsTemporary path →
    r.2.readText path = .ok o.text ∧ t.Replaced path r.2

/-- Putting a text in the place of a file leaves no temporary file behind, neither when it succeeds
nor when the text cannot be moved to its place. -/
structure IsTidy (t : FileTree) (path : String) (r : Except SyncError Unit × FileTree) :
    Prop where
  error : ∀ e, r.1 = .error e → r.2 = t
    ∨ (∀ q, t.temporaryPlace? path = some q → r.2.at? q = none)
      ∧ (t.OwnsTemporary path → ∀ q, t.temporaryPlace? path ≠ some q → r.2.at? q = t.at? q)
  ok : r.1 = .ok () → t.OwnsTemporary path → t.Replaced path r.2

section

variable (hnumbered : ∀ q n c, t.at? q = some (.file n c) → n < t.nextSerial)

include hnumbered

theorem isAtomic_renewFile (ht : t.IsGrounded) (dryRun : Bool) (renew : String → SyncOutcome) :
    IsAtomic t path dryRun renew (renewFile t path dryRun renew) := by
  rcases renewFile_cases t path dryRun renew with ⟨e, hr⟩ | ⟨text, hread, hr⟩
  · rw [hr]
    constructor <;> rintro _ ⟨⟩
    rfl
  · rcases hr with
      ⟨hidle, hr⟩ | ⟨hwet, hchanged, beside, written, moved, hbeside, hwrite, hrename, hr⟩
    · rw [hr]
      constructor <;> rintro _ ⟨⟩
      · exact ⟨text, hread, rfl⟩
      · exact fun _ => rfl
      · intro hwet hchanged
        simp [hwet, hchanged] at hidle
    · rw [hr]
      constructor <;> rintro _ ⟨⟩
      · exact ⟨text, hread, rfl⟩
      · intro hidle
        simp [hwet, hchanged] at hidle
      · intro _ _ hown
        obtain ⟨old, new, hold, hnew, hdirectory, hreplaces⟩ :=
          replaces_of_rename hnumbered hown hbeside hwrite hrename
        have halone := hown _ (temporaryPlace?_eq hbeside hold)
        exact ⟨hreplaces.readText ht hdirectory halone hnew hread,
          hreplaces.replaced hbeside hold hnew⟩

theorem isTidy_commit (text : String) : IsTidy t path (commit t path text) := by
  rcases commit_cases t path text with ⟨e, hr⟩ | ⟨beside, written, hbeside, hwrite, hr⟩
  · rw [hr]
    constructor
    · exact fun _ _ => .inl rfl
    · rintro ⟨⟩
  · rcases hr with ⟨moved, hrename, hr⟩ | ⟨e, hrename, hr⟩
    · rw [hr]
      constructor
      · rintro _ ⟨⟩
      · intro _ hown
        obtain ⟨old, new, hold, hnew, -, hreplaces⟩ :=
          replaces_of_rename hnumbered hown hbeside hwrite hrename
        exact hreplaces.replaced hbeside hold hnew
    · obtain ⟨old, hold, hold', -, x, hx, hne⟩ := locateLast_of_writeText hwrite
      have hremove := remove_eq_ok hold' (ending_beside hbeside hold) hx hne
      have hplace : old.place ≠ [] := place_ne_nil (t := written) fun h =>
        hne (Option.some.inj (hx.symm.trans h))
      rw [hr, hremove]
      constructor
      · refine fun _ _ => .inr ⟨fun q hq => ?_, fun hown q hq => ?_⟩
        · rw [temporaryPlace?_eq hbeside hold] at hq
          exact (at?_erase hplace q).trans (if_pos (Option.some.inj hq).symm)
        · rw [temporaryPlace?_eq hbeside hold] at hq
          have hother : q ≠ old.place := fun h => hq (h ▸ rfl)
          have halone := hown _ (temporaryPlace?_eq hbeside hold)
          exact ((at?_erase hplace q).trans (if_neg hother)).trans
            ((writeText_alone hnumbered hwrite hold halone).2.1 q hother)
      · rintro ⟨⟩

end

/-- A source with something at its temporary path, another file and a directory. -/
def sourceTree (temporary : Entry) : FileTree :=
  ⟨[(["w"], .directory), (["w", "a.py"], .file 0 (.text "# --- END MADL ---\nx = 1\n")),
    (["w", "notes.txt"], .file 1 (.text "kept\n")), (["w", ".a.py.madl.tmp"], temporary),
    (["w", "d"], .directory)], 3, ["w"]⟩

end Marginalia
