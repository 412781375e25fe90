import Marginalia.Proofs.Json.Documents
import Marginalia.Proofs.Tree.Detours

/-!
Reading a manifest that was written. What is moved to the path of a manifest is the file with its
text, or a link to it, so whatever the path leads to afterwards is that file. It leads to something
unless a link stood at the path or beside it.
-/

namespace Marginalia

namespace FileTree

variable {t t' made written moved : FileTree} {path text : String} {entry : Entry}

theorem stat_eq_ok (h : t.stat path = .ok entry) :
    ∃ d, t.locate path = .ok d ∧ t.at? d.place = some entry := by
  unfold stat at h
  cases hfind : t.find path with
  | error e =>
    rw [hfind] at h
    cases h
  | ok found =>
    obtain ⟨place, x⟩ := found
    rw [hfind] at h
    obtain rfl := Except.ok.inj h
    obtain ⟨d, hd, rfl, hplace⟩ := find_eq_ok hfind
    exact ⟨d, hd, hplace⟩

/-- A file with a text at the end of a path is read as that text. -/
theorem readText_of_stat {n : Nat} (h : t.stat path = .ok (.file n (.text text))) :
    t.readText path = .ok text := by
  rw [readText, h]
  rfl

/-- Where no link stands, a path leads to the text that was written to it. -/
theorem text_of_writeText {old : Destination} (hwrite : t.writeText path text = .ok t')
    (hold : t'.locateLast path = .ok old)
    (hlink : ∀ target, t'.at? old.place ≠ some (.link target)) :
    ∃ n, t'.at? old.place = some (.file n (.text text)) := by
  obtain ⟨d, n, hgo, hwrites⟩ := writeText_eq_ok hwrite
  refine ⟨n, ?_⟩
  rcases t.go_follow (· != .slash) path with hsame | ⟨d', target, hd', hat⟩
  · have hd := go_mono hwrites.sameWays.forth (hsame ▸ hgo)
    rw [Except.ok.inj (hold.symm.trans hd)]
    exact hwrites.here
  · have hd := go_mono hwrites.sameWays.forth hd'
    rw [Except.ok.inj (hold.symm.trans hd)] at hlink
    exact absurd ((hwrites.sameWays.forth.link _ _).2 hat) (hlink target)

/-- Where everything stands in a directory, directories still do when a text has been written and
moved. -/
theorem above_of_moves {place old new : Location} {n : Nat} {x : Entry} (ht : t.IsGrounded)
    (hwrites : t.Writes place text written n) (hmoves : written.Moves old new x moved) :
    (∀ q, t.at? q = some .directory → moved.at? q = some .directory)
      ∧ ∀ q, moved.at? q = some .directory → moved.at? q.dropLast = some .directory := by
  have hstays : ∀ q, t.at? q = some .directory → moved.at? q = some .directory := fun q hq =>
    (hmoves.directory_iff q).2 (hwrites.sameWays.forth.directory q hq)
  refine ⟨hstays, fun q hq => hstays _ (ht.above q ?_)⟩
  rw [hwrites.sameWays.back.directory q ((hmoves.directory_iff q).1 hq)]
  simp

/-- The file beside a manifest stands in the directory of the manifest. -/
theorem dropLast_besideManifest {old new : Destination}
    (hold : t.locateLast (besideManifest path) = .ok old) (hnew : t.locateLast path = .ok new)
    (hendOld : old.ending = .name) (hendNew : new.ending = .name) :
    old.place.dropLast = new.place.dropLast := by
  rw [ending_of_locateLast hnew] at hendNew
  rw [ending_of_locateLast hold] at hendOld
  obtain ⟨front, name, hname, hup⟩ := Path.names_of_ending hendNew
  obtain ⟨name', hname', hup', habsolute⟩ : ∃ name',
      Path.names (besideManifest path) = front ++ [name'] ∧ name' ≠ ".."
        ∧ Path.isAbsolute (besideManifest path) = Path.isAbsolute path :=
    Path.names_withExtension hname hup (by decide) (by decide)
  obtain ⟨place, hnewPlace, holdPlace⟩ := places_of_locateLast hname hname' hup hup'
    (by simp [hendNew]) (by simp [hendOld]) habsolute hnew hold
  rw [hnewPlace, holdPlace, List.dropLast_concat, List.dropLast_concat]

/-- A link that stood beside a manifest and was moved to its path leads there to the text that was
written through it, if it leads to anything. -/
theorem entry_of_moved_link {old new d : Destination} {target : String} (ht : t.IsGrounded)
    (hwrite : t.writeText (besideManifest path) text = .ok written)
    (hold : written.locateLast (besideManifest path) = .ok old)
    (hnew : written.locateLast path = .ok new) (hend : old.ending = .name)
    (hend' : new.ending = .name)
    (hmoves : written.Moves old.place new.place (.link target) moved)
    (hdir : moved.workingDirectory = written.workingDirectory)
    (hd : moved.locate path = .ok d) (hentry : moved.at? d.place = some entry) :
    ∃ n, entry = .file n (.text text) := by
  obtain ⟨d₀, m, hgo, hwrites⟩ := writeText_eq_ok hwrite
  obtain ⟨hstays, habove⟩ := above_of_moves ht hwrites hmoves
  have hbeside := dropLast_besideManifest hold hnew hend hend'
  have hthere : moved.at? d.place ≠ none := by simp [hentry]
  have hnotLink : moved.at? d.place ≠ some (.link target) := by
    refine not_link_of_locate habove ?_ hd target
    rw [startOf_eq (hdir.trans hwrites.workingDirectory)]
    exact hstays _ (ht.startOf path)
  have hground : moved.at? (if Path.isAbsolute target then [] else new.place.dropLast)
      = some .directory := by
    split
    · exact at?_nil moved
    · have hlink := (hwrites.sameWays.back.link old.place target).2 hmoves.here
      exact hbeside ▸ hstays _ (ht.above _ (by simp [hlink]))
  obtain ⟨links, e, hway⟩ := way_of_link ((ending_of_locateLast hold).symm.trans hend) hold
    hmoves.here rfl (go_mono hwrites.sameWays.forth hgo)
  have hplace : d.place = d₀.place := by
    rcases hmoves.locate hdir hnew hd hthere with hplace | hby
    · exact absurd (hplace ▸ hmoves.target) hnotLink
    · obtain ⟨l, -, rest, e', hrest⟩ := hby.through hmoves.target
      exact hmoves.place_of_link habove rfl hground (hbeside ▸ hway) hwrites.here rest hrest
        hthere
  have hat : moved.at? d₀.place = written.at? d₀.place := by
    refine hmoves.same _ ?_
    rintro (hold | hnew)
    · cases (hold ▸ hwrites.here).symm.trans hmoves.here
    · exact hnotLink (hplace ▸ hnew ▸ hmoves.target)
  rw [hplace, hat, hwrites.here] at hentry
  exact ⟨m, (Option.some.inj hentry).symm⟩

/-- A text that was written beside a manifest and moved to its path is what the path leads to, if it
leads to anything. -/
theorem entry_of_replace (ht : t.IsGrounded)
    (hwrite : t.writeText (besideManifest path) text = .ok written)
    (hrename : written.rename (besideManifest path) path = .ok moved)
    (hstat : moved.stat path = .ok entry) : ∃ n, entry = .file n (.text text) := by
  obtain ⟨d, hd, hentry⟩ := stat_eq_ok hstat
  obtain ⟨old, new, x, hold, hnew, hmoves, hdir⟩ := moves_of_rename hrename
  obtain ⟨hend, hend'⟩ := ending_of_rename hrename hold hnew
  cases x with
  | directory => exact absurd rfl hmoves.notDirectory
  | link target => exact entry_of_moved_link ht hwrite hold hnew hend hend' hmoves hdir hd hentry
  | file n c =>
    obtain ⟨m, hm⟩ := text_of_writeText hwrite hold (by simp [hmoves.here])
    have hplace : d.place = new.place := by
      rcases hmoves.locate hdir hnew hd (by simp [hentry]) with hplace | hby
      · exact hplace
      · exact hby.place_eq (by simp [hmoves.target]) (by simp [hmoves.target])
    rw [hplace, hmoves.target, ← hmoves.here, hm] at hentry
    exact ⟨m, (Option.some.inj hentry).symm⟩

/-- Where no link stands, neither at a path nor beside it, a text that was written beside the path
and moved to it is read there. -/
theorem readText_of_replace (hlink : ∀ q target,
      t.LeadsTo (besideManifest path) q ∨ t.LeadsTo path q → t.at? q ≠ some (.link target))
    (hwrite : t.writeText (besideManifest path) text = .ok written)
    (hrename : written.rename (besideManifest path) path = .ok moved) :
    moved.readText path = .ok text := by
  obtain ⟨d, m, -, hwrites⟩ := writeText_eq_ok hwrite
  obtain ⟨old, new, x, hold, hnew, hmoves, hdir⟩ := moves_of_rename hrename
  obtain ⟨-, hend⟩ := ending_of_rename hrename hold hnew
  have hgrows := hwrites.sameWays.forth
  have hlinkOld : ∀ target, written.at? old.place ≠ some (.link target) := fun target hat =>
    hlink _ target (.inl ((leadsTo_of_locateLast hold).of_growsInto hgrows))
      ((hgrows.link _ _).1 hat)
  have hlinkNew : ∀ target, written.at? new.place ≠ some (.link target) := fun target hat =>
    hlink _ target (.inr ((leadsTo_of_locateLast hnew).of_growsInto hgrows))
      ((hgrows.link _ _).1 hat)
  obtain ⟨n, hn⟩ := text_of_writeText hwrite hold hlinkOld
  obtain rfl := Option.some.inj (hn.symm.trans hmoves.here)
  have hd := go_mono (hmoves.growsInto hdir (by simp) hlinkNew) hnew
  have hlast : moved.locateLast path = .ok ⟨new.place, .name⟩ := by rw [locateLast, hd, ← hend]
  exact readText_of_locateLast hlast hmoves.target

end FileTree

open Json

variable {t : FileTree} {path : String} {records : List ManifestRecord}

/-- A manifest is written by way of a text beside its path that is moved there. -/
theorem writeManifest_eq_ok (h : (writeManifest t path records).1 = .ok ()) : ∃ made written,
    t.makeParents path = .ok made
      ∧ made.writeText (besideManifest path) (manifestText records) = .ok written
      ∧ written.rename (besideManifest path) path = .ok (writeManifest t path records).2 := by
  unfold writeManifest at h ⊢
  cases hmake : t.makeParents path with
  | error e => simp [hmake] at h
  | ok made =>
  cases hwrite : made.writeText (besideManifest path) (manifestText records) with
  | error e => simp [hmake, hwrite] at h
  | ok written =>
  cases hrename : written.rename (besideManifest path) path with
  | error e => simp [hmake, hwrite, hrename] at h
  | ok moved => exact ⟨made, written, rfl, hwrite, by simp only [hwrite, hrename]⟩

/-- Records are read from the text that a manifest has of them. -/
theorem readManifest_of_readText (h : ∀ r ∈ records, r.IsExact)
    (htext : t.readText path = .ok (manifestText records)) :
    readManifest t path = .ok records := by
  have hread := roundTrips_list fun r hr => roundTrips_manifestRecord (h r hr)
  rw [readManifest, htext]
  simp only [manifestText, hread.readText?_toPrettyText]

/-- What was written as a document is read as it was. Where a manifest was written, its records are
read in their order, if its path leads to anything then; it does if no link stood there or
beside it. -/
theorem documents_read_as_written :
    (∀ u : CodeUnit, u.IsExact → readText? CodeUnit (toPrettyText (toJson u)) = some u
      ∧ readText? CodeUnit (toText (toJson u)) = some u)
    ∧ (∀ r : RunReport, r.IsExact → readText? RunReport (toPrettyText (toJson r)) = some r
      ∧ readText? RunReport (toText (toJson r)) = some r)
    ∧ ∀ records : List ManifestRecord, (∀ r ∈ records, r.IsExact) →
      (readText? (List ManifestRecord) (toPrettyText (toJson records)) = some records
        ∧ readText? (List ManifestRecord) (toText (toJson records)) = some records)
      ∧ ∀ (t : FileTree) (path : String), t.IsGrounded →
        (writeManifest t path records).1 = .ok () →
        (∀ entry, (writeManifest t path records).2.stat path = .ok entry →
          readManifest (writeManifest t path records).2 path = .ok records)
        ∧ ((∀ place target, t.LeadsTo (besideManifest path) place ∨ t.LeadsTo path place →
            t.at? place ≠ some (.link target)) →
          readManifest (writeManifest t path records).2 path = .ok records) := by
  refine ⟨fun u hu => ?_, fun r hr => ?_, fun records hrecords => ⟨?_, fun t path ht hwrite => ?_⟩⟩
  · have hread := roundTrips_codeUnit hu
    exact ⟨hread.readText?_toPrettyText, hread.readText?_toText⟩
  · have hread := roundTrips_runReport hr
    exact ⟨hread.readText?_toPrettyText, hread.readText?_toText⟩
  · have hread := roundTrips_list fun r hr => roundTrips_manifestRecord (hrecords r hr)
    exact ⟨hread.readText?_toPrettyText, hread.readText?_toText⟩
  · obtain ⟨made, written, hmake, hwrite, hrename⟩ := writeManifest_eq_ok hwrite
    refine ⟨fun entry hstat => ?_, fun hlink => ?_⟩
    · obtain ⟨n, rfl⟩ :=
        FileTree.entry_of_replace (ht.makeParents hmake) hwrite hrename hstat
      exact readManifest_of_readText hrecords (FileTree.readText_of_stat hstat)
    · have hgrows := (FileTree.addsDirectories_makeParents hmake).growsInto
      refine readManifest_of_readText hrecords (FileTree.readText_of_replace ?_ hwrite hrename)
      intro q target hq hat
      exact hlink q target (hq.imp (·.of_growsInto hgrows) (·.of_growsInto hgrows))
        ((hgrows.link q target).1 hat)

/-- A tree with a link beside the path of a manifest. -/
def linkedTree (target : String) : FileTree :=
  ⟨[(["w"], .directory), (["w", "m.json.tmp"], .link target)], 0, ["w"]⟩

/-- A manifest whose temporary file was a link to the manifest itself leads nowhere. -/
theorem manifest_lost_behind_own_link :
    (writeManifest (linkedTree "m.json") "m.json" []).1 = .ok ()
      ∧ readManifest (writeManifest (linkedTree "m.json") "m.json" []).2 "m.json"
        = .error (.file .tooManyLinks) := by
  decide +kernel

/-- A method that has been judged. -/
def judgedUnit : CodeUnit where
  id := .compose "a.py" (some "A") "f" 2
  file := "a.py"
  language := .python
  scope := some "A"
  name := "f"
  signature := "f(self, x)"
  range := ⟨1, 3⟩
  body := "    def f(self, x):\n        return \"g\"\n"
  callsOut := ["g"]
  callsIn := []
  verdict := some ⟨true, "pure", .half, .model⟩
  annotation := none
  indexId := none

/-- The report of a run that has counted its files. -/
def countedReport : RunReport where
  filesScanned := 3
  languages := [("go", 1), ("python", 2)]
  diagnostics := [.ofFile "a.py" .cancelled "asked to stop", .ofUnit "b.go" ⟨"b"⟩ .skipped "lost"]

theorem documents_read_as_written_judged :
    readText? CodeUnit (toPrettyText (toJson judgedUnit)) = some judgedUnit
      ∧ readText? RunReport (toText (toJson countedReport)) = some countedReport
      ∧ readManifest (writeManifest (linkedTree "kept.json") "m.json" [.ofUnit judgedUnit]).2
        "m.json" = .ok [.ofUnit judgedUnit]
      ∧ readManifest (writeManifest (.empty ["w"]) "m.json" [.ofUnit judgedUnit]).2 "m.json"
        = .ok [.ofUnit judgedUnit] := by
  have hprinted : Single.IsPrinted .half := by
    unfold Single.IsPrinted
    decide +kernel
  have hunit : judgedUnit.IsExact := ⟨⟨by decide, by decide⟩, by rintro _ ⟨⟩; exact hprinted⟩
  have hrecords : ∀ r ∈ [ManifestRecord.ofUnit judgedUnit], r.IsExact := by
    intro r hr
    obtain rfl := List.mem_singleton.1 hr
    exact ⟨hunit.range, by rintro _ ⟨⟩; exact hprinted⟩
  have hreport : countedReport.IsExact := by constructor <;> decide
  obtain ⟨hu, hr, hm⟩ := documents_read_as_written
  obtain ⟨-, hm⟩ := hm _ hrecords
  refine ⟨(hu _ hunit).1, (hr _ hreport).2, ?_, ?_⟩
  · exact (hm (linkedTree "kept.json") "m.json" (.of_entries (by decide) (by decide))
      (by decide +kernel)).1 (.file 0 (.text (manifestText [.ofUnit judgedUnit]))) rfl
  · refine (hm (.empty ["w"]) "m.json" (.of_entries (by decide) (by decide))
      (by decide +kernel)).2 fun place target _ hlink => ?_
    have hroot : place ≠ [] := FileTree.place_ne_nil (t := .empty ["w"]) (by simp [hlink])
    have hmem := FileTree.mem_of_at? hroot hlink
    simp [FileTree.empty, FileTree.fronts] at hmem

end Marginalia
