import Marginalia.Proofs.Tree.Resemblance
import Marginalia.RunManifest

/-!
What writing a manifest leaves alone, and when it succeeds. Files stay as they are, unless the path
of the manifest or that of the file beside it leads to them, or they are known there by another
name. Where one manifest can be written so can any other one, also when files are gone. In trees
that resemble each other writing a manifest comes to the same.
-/

namespace Marginalia

variable {t : FileTree} {path : String}

theorem at?_writeManifest {records : List ManifestRecord} {place : Location} {n : Nat}
    {c : Content} (hfile : t.at? place = some (.file n c)) (hnumber : n < t.nextSerial)
    (hpath : ¬t.LeadsTo path place) (hbeside : ¬t.LeadsTo (besideManifest path) place)
    (hlink : ∀ q target, t.LeadsTo (besideManifest path) q → t.at? q ≠ some (.link target))
    (hother : ∀ q c', t.LeadsTo (besideManifest path) q → t.at? q ≠ some (.file n c')) :
    (writeManifest t path records).2.at? place = some (.file n c) := by
  unfold writeManifest
  cases hmake : t.makeParents path with
  | error e => exact hfile
  | ok made =>
  have hadds := FileTree.addsDirectories_makeParents hmake
  have hmade : made.at? place = some (.file n c) := by
    rcases hadds.entry place with hsame | ⟨hnone, -⟩
    · exact hsame.trans hfile
    · cases hnone.symm.trans hfile
  dsimp only
  cases hwrite : made.writeText (besideManifest path) (manifestText records) with
  | error e => exact hmade
  | ok written =>
  obtain ⟨d, m, hgo, hwrites⟩ := FileTree.writeText_eq_ok hwrite
  have hd : t.LeadsTo (besideManifest path) d.place := by
    refine .of_growsInto hadds.growsInto (FileTree.leadsTo_of_go (fun q target hq => ?_) hgo)
    exact fun hat => hlink q target (hq.of_growsInto hadds.growsInto)
      ((hadds.growsInto.link q target).1 hat)
  -- the file that is written has a number of its own, be it an old one or a new one
  have hm : n ≠ m := by
    rintro rfl
    rcases hwrites.serial with ⟨⟨c', hc'⟩, -⟩ | ⟨-, hserial, -⟩
    · rcases hadds.entry d.place with hsame | ⟨-, hdirectory⟩
      · exact hother d.place c' hd (hsame.symm.trans hc')
      · cases hc'.symm.trans hdirectory
    · exact absurd hnumber (by rw [hserial, hadds.nextSerial]; exact Nat.lt_irrefl _)
  have hwritten : written.at? place = some (.file n c) := by
    rw [hwrites.elsewhere place fun hplace => hbeside (hplace ▸ hd), hmade]
    exact FileTree.map_change_eq_self fun c' hc' =>
      hm (Entry.file.inj (Option.some.inj hc')).1
  have hgrows := hadds.growsInto.trans hwrites.sameWays.forth
  dsimp only
  cases hrename : written.rename (besideManifest path) path with
  | error e => exact hwritten
  | ok moved =>
    obtain ⟨old, new, e, hold, hnew, -, -, -, hat, -⟩ := FileTree.rename_eq_ok hrename
    have hne : place ≠ new.place := fun hplace =>
      hpath (hplace ▸ (FileTree.leadsTo_of_locateLast hnew).of_growsInto hgrows)
    have hne' : place ≠ old.place := fun hplace =>
      hbeside (hplace ▸ (FileTree.leadsTo_of_locateLast hold).of_growsInto hgrows)
    rw [hat, if_neg hne, if_neg hne']
    exact hwritten

/-- Some manifest could be written to the path. -/
def ManifestFits (t : FileTree) (path : String) : Prop :=
  ∃ records, (writeManifest t path records).1 = .ok ()

/-- Where a manifest could be written, any other one can be when nothing has come in the way. -/
theorem ManifestFits.writeManifest {t' : FileTree} (h : ManifestFits t path) (ht : t.ThinsTo t')
    (records : List ManifestRecord) : (writeManifest t' path records).1 = .ok () := by
  obtain ⟨records₀, hwrite⟩ := h
  unfold Marginalia.writeManifest at hwrite ⊢
  cases hmake : t.makeParents path with
  | error e =>
    rw [hmake] at hwrite
    cases hwrite
  | ok made =>
  cases hbeside : made.writeText (besideManifest path) (manifestText records₀) with
  | error e =>
    simp only [hmake, hbeside] at hwrite
    cases hwrite
  | ok written =>
  cases hrename : written.rename (besideManifest path) path with
  | error e =>
    simp only [hmake, hbeside, hrename] at hwrite
    cases hwrite
  | ok moved =>
  obtain ⟨made', hmake', hthins⟩ := ht.makeParents hmake
  obtain ⟨written', moved', hbeside', hrename'⟩ :=
    hthins.replace hbeside hrename (manifestText records)
  simp only [hmake', hbeside', hrename']

/-- Writing a manifest comes to the same in trees that resemble each other. -/
theorem FileTree.Resembles.writeManifest {alike : Nat → Content → Content → Prop}
    (halike : ∀ n c, alike n c c) {t' : FileTree} (h : t.Resembles alike t') (path : String)
    (records : List ManifestRecord) :
    (writeManifest t path records).1 = (writeManifest t' path records).1
      ∧ (writeManifest t path records).2.Resembles alike (writeManifest t' path records).2 := by
  unfold Marginalia.writeManifest
  have hmade := h.makeParents path
  generalize t.makeParents path = made, t'.makeParents path = made' at hmade
  cases hmade with
  | error e => exact ⟨rfl, h⟩
  | @ok made made' hmade =>
  have hwritten := hmade.writeText halike (besideManifest path) (manifestText records)
  generalize hwrite : made.writeText (besideManifest path) (manifestText records) = written,
    hwrite' : made'.writeText (besideManifest path) (manifestText records) = written' at hwritten
  cases hwritten with
  | error e =>
    simp only [hwrite, hwrite', true_and]
    exact hmade
  | @ok written written' hwritten =>
  have hmoved := hwritten.rename (besideManifest path) path
  generalize hrename : written.rename (besideManifest path) path = moved,
    hrename' : written'.rename (besideManifest path) path = moved' at hmoved
  cases hmoved with
  | error e =>
    simp only [hwrite, hwrite', hrename, hrename', true_and]
    exact hwritten
  | ok hmoved =>
    simp only [hwrite, hwrite', hrename, hrename', true_and]
    exact hmoved

end Marginalia
