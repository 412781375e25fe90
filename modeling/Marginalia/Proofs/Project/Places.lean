import Marginalia.Project
import Marginalia.Proofs.Walk

/-!
The places that a run works at. A source file stands at one place and the hidden file beside it at
another. A worker changes its own two places only: elsewhere every file stays, under its number and
with what it holds, and the ways through the tree stay as they are.
-/

namespace Marginalia

/-! ### The places of a file -/

/-- The file stands at a place, with the text that the scan has read. -/
structure ParsedFile.StandsAt (f : ParsedFile) (t : FileTree) (place : Location) : Prop where
  located : t.locateLast f.file.path = .ok ⟨place, .name⟩
  file : ∃ n, t.at? place = some (.file n (.text f.text))

theorem ParsedFile.StandsAt.locate {f : ParsedFile} {t : FileTree} {place : Location}
    (h : f.StandsAt t place) : t.locate f.file.path = .ok ⟨place, .name⟩ := by
  obtain ⟨n, hfile⟩ := h.file
  exact FileTree.locate_of_locateLast h.located hfile

/-- The path of the hidden file by way of which the file is written, if it is to be written. -/
def ParsedFile.hidden? (f : ParsedFile) (dryRun : Bool) : Option String :=
  if dryRun then none else besidePath? f.file.path

theorem ParsedFile.besidePath?_of_hidden? {f : ParsedFile} {dryRun : Bool} {beside : String}
    (h : f.hidden? dryRun = some beside) : besidePath? f.file.path = some beside := by
  unfold hidden? at h
  split at h
  · cases h
  · exact h

/-- What a run sets out with, as far as files are concerned. -/
structure Outset where
  tree : FileTree
  index : Index
  /-- Nothing is to be written to the sources. -/
  dryRun : Bool
  /-- The files that are worked on. -/
  worked : ParsedFile → Prop
  /-- The texts that count as the same as that of a file. -/
  same : ParsedFile → String → Prop

namespace Outset

/-- The hidden file by way of which a file is written, if it is there, stands at a place. -/
def HidesAt (o : Outset) (f : ParsedFile) (place : Location) : Prop :=
  ∃ path d, f.hidden? o.dryRun = some path ∧ o.tree.locateLast path = .ok d ∧ d.place = place

/-- The files that are worked on have places of their own. Where their hidden files are to stand,
nothing else is known under another name. -/
structure Workplaces (o : Outset) : Prop where
  stands : ∀ {f}, o.worked f → ∃ place, f.StandsAt o.tree place
  stands_injective : ∀ {f g place}, o.worked f → o.worked g → f.StandsAt o.tree place →
    g.StandsAt o.tree place → f = g
  hides_injective : ∀ {f g place}, o.worked f → o.worked g → o.HidesAt f place →
    o.HidesAt g place → f = g
  hides_ne_stands : ∀ {f g place place'}, o.worked f → o.worked g → o.HidesAt f place →
    g.StandsAt o.tree place' → place ≠ place'
  stands_index : ∀ {f place n c}, o.worked f → f.StandsAt o.tree place →
    o.tree.at? place = some (.file n c) → o.index ≠ .file n
  hides_link : ∀ {f place target}, o.worked f → o.HidesAt f place →
    o.tree.at? place ≠ some (.link target)
  hides_alone : ∀ {f place n c}, o.worked f → o.HidesAt f place →
    o.tree.at? place = some (.file n c) →
    o.index ≠ .file n ∧ ∀ q c', o.tree.at? q = some (.file n c') → q = place
  index_lt : ∀ {n}, o.index = .file n → n < o.tree.nextSerial

theorem HidesAt.unique {o : Outset} {f : ParsedFile} {place place' : Location}
    (h : o.HidesAt f place) (h' : o.HidesAt f place') : place = place' := by
  obtain ⟨path, d, hpath, hd, rfl⟩ := h
  obtain ⟨path', d', hpath', hd', rfl⟩ := h'
  obtain rfl := Option.some.inj (hpath.symm.trans hpath')
  rw [Except.ok.inj (hd.symm.trans hd')]

/-! ### What stays -/

/-- What has become of a tree, as far as the workers are concerned. Files that are no concern of
theirs are as they were, and those that are worked on hold a text that counts as the same. A file
that has not been at its place before has no other name. -/
structure Intact (o : Outset) (t : FileTree) : Prop where
  ways : o.tree.SameWays t
  later : o.tree.nextSerial ≤ t.nextSerial
  numbered : ∀ q n c, t.at? q = some (.file n c) → n < t.nextSerial
  origin : ∀ q n c, t.at? q = some (.file n c) → (∃ c₀, o.tree.at? q = some (.file n c₀))
    ∨ o.index ≠ .file n ∧ ∀ q' c', t.at? q' = some (.file n c') → q' = q
  kept : ∀ q n c, o.tree.at? q = some (.file n c) → o.index ≠ .file n →
    (∀ f, o.worked f → ¬f.StandsAt o.tree q ∧ ¬o.HidesAt f q) → t.at? q = some (.file n c)
  work : ∀ f q, o.worked f → f.StandsAt o.tree q →
    ∃ n text, t.at? q = some (.file n (.text text)) ∧ o.same f text

/-- The hidden file beside the file holds a text that counts as the same. -/
def Holds (o : Outset) (f : ParsedFile) (t : FileTree) : Prop :=
  ∃ place n text, o.HidesAt f place ∧ t.at? place = some (.file n (.text text)) ∧ o.same f text

/-- What a worker may change: the places of its own file, where a file that comes has no other
name. -/
structure ChangesOwn (o : Outset) (f : ParsedFile) (t t' : FileTree) : Prop where
  ways : t.SameWays t'
  later : t.nextSerial ≤ t'.nextSerial
  elsewhere : ∀ q, ¬f.StandsAt o.tree q → ¬o.HidesAt f q → t'.at? q = t.at? q
  work : ∀ q, f.StandsAt o.tree q → t'.at? q = t.at? q
    ∨ ∃ n text, t'.at? q = some (.file n (.text text)) ∧ o.same f text
  origin : ∀ q n c, t'.at? q = some (.file n c) → (∃ c', t.at? q = some (.file n c'))
    ∨ n < t'.nextSerial ∧ o.index ≠ .file n ∧ ∀ q' c', t'.at? q' = some (.file n c') → q' = q

section

variable {o : Outset} {f g : ParsedFile} {t t' : FileTree}

/-- In the beginning everything is as it was. -/
theorem intact_self
    (hnumbered : ∀ q n c, o.tree.at? q = some (.file n c) → n < o.tree.nextSerial)
    (hsame : ∀ f, o.worked f → o.same f f.text) : o.Intact o.tree where
  ways := .refl _
  later := Nat.le_refl _
  numbered := hnumbered
  origin _ _ c h := .inl ⟨c, h⟩
  kept _ _ _ h _ _ := h
  work f q hf hq := by
    obtain ⟨n, hn⟩ := hq.file
    exact ⟨n, f.text, hn, hsame f hf⟩

/-- Whatever a worker does with the places of its file, everything stays intact. -/
theorem Intact.changesOwn (h : o.Intact t) (hp : o.Workplaces)
    (hf : o.worked f) (hc : o.ChangesOwn f t t') : o.Intact t' where
  ways := h.ways.trans hc.ways
  later := Nat.le_trans h.later hc.later
  numbered q n c hq := by
    rcases hc.origin q n c hq with ⟨c', hq'⟩ | ⟨hn, -⟩
    · exact Nat.lt_of_lt_of_le (h.numbered q n c' hq') hc.later
    · exact hn
  origin q n c hq := by
    rcases hc.origin q n c hq with ⟨c', hq'⟩ | ⟨-, halone⟩
    · refine (h.origin q n c' hq').imp id fun ⟨hindex, halone⟩ => ⟨hindex, fun q' c'' hq'' => ?_⟩
      -- another name is either an old one or that of a file that has just come, which has one only
      rcases hc.origin q' n c'' hq'' with ⟨c₁, h₁⟩ | ⟨-, -, halone'⟩
      · exact halone q' c₁ h₁
      · exact (halone' q c hq).symm
    · exact .inr halone
  kept q n c hq hindex hout := by
    rw [hc.elsewhere q (hout f hf).1 (hout f hf).2]
    exact h.kept q n c hq hindex hout
  work g q hg hq := by
    by_cases hstands : f.StandsAt o.tree q
    · obtain rfl := hp.stands_injective hf hg hstands hq
      rcases hc.work q hq with hsame | hnew
      · rw [hsame]
        exact h.work f q hf hq
      · exact hnew
    · rw [hc.elsewhere q hstands fun hhides => hp.hides_ne_stands hf hg hhides hq rfl]
      exact h.work g q hg hq

/-- A hidden file has no other name, and is not the index. -/
theorem Intact.hides_alone (h : o.Intact t) (hp : o.Workplaces)
    (hf : o.worked f) {place : Location} (hplace : o.HidesAt f place) {n : Nat} {c : Content}
    (hn : t.at? place = some (.file n c)) :
    o.index ≠ .file n ∧ ∀ q c', t.at? q = some (.file n c') → q = place := by
  rcases h.origin place n c hn with ⟨c₀, hn₀⟩ | halone
  · obtain ⟨hindex, halone⟩ := hp.hides_alone hf hplace hn₀
    refine ⟨hindex, fun q c' hq => ?_⟩
    rcases h.origin q n c' hq with ⟨c₁, hq₀⟩ | ⟨-, halone'⟩
    · exact halone q c₁ hq₀
    · exact (halone' place c hn).symm
  · exact halone

/-! ### Where the paths of a file lead -/

/-- The path of the file leads where it has led before. -/
theorem Intact.stands_of_go (h : o.Intact t) (hp : o.Workplaces)
    (hf : o.worked f) {follow : Path.Ending → Bool} {d : FileTree.Destination}
    (hd : t.go follow f.file.path = .ok d) : f.StandsAt o.tree d.place := by
  obtain ⟨place, hplace⟩ := hp.stands hf
  obtain ⟨n, hfile⟩ := hplace.file
  have hback {d' : FileTree.Destination} (hd' : t.locateLast f.file.path = .ok d') :
      d'.place = place :=
    congrArg FileTree.Destination.place
      (Except.ok.inj ((FileTree.go_mono h.ways.back hd').symm.trans hplace.located))
  rcases t.go_follow follow f.file.path with hgo | ⟨d', target, hd', hlink⟩
  · rw [hback (hgo ▸ hd)]
    exact hplace
  · rw [hback hd', h.ways.forth.link, hfile] at hlink
    cases hlink

/-- The path of the hidden file leads where it would have led before. -/
theorem Intact.hides_of_go (h : o.Intact t) (hp : o.Workplaces)
    (hf : o.worked f) {beside : String} (hbeside : f.hidden? o.dryRun = some beside)
    {follow : Path.Ending → Bool} {d : FileTree.Destination} (hd : t.go follow beside = .ok d) :
    o.HidesAt f d.place := by
  have hback {d' : FileTree.Destination} (hd' : t.locateLast beside = .ok d') :
      o.HidesAt f d'.place :=
    ⟨beside, d', hbeside, FileTree.go_mono h.ways.back hd', rfl⟩
  rcases t.go_follow follow beside with hgo | ⟨d', target, hd', hlink⟩
  · exact hback (hgo ▸ hd)
  · rw [h.ways.forth.link] at hlink
    exact absurd hlink (hp.hides_link hf (hback hd'))

/-- The path of the hidden file can be followed as it could before, and fails as it would have. -/
theorem Intact.go_hidden (h : o.Intact t) (hp : o.Workplaces) (hf : o.worked f) {beside : String}
    (hbeside : f.hidden? o.dryRun = some beside) :
    t.go (· != .slash) beside = o.tree.go (· != .slash) beside := by
  obtain ⟨place, hplace⟩ := hp.stands hf
  obtain ⟨front, name, hnames, hup, hnames', hup', hend', habsolute⟩ :=
    Path.names_of_besidePath? (ParsedFile.besidePath?_of_hidden? hbeside)
  have hend : Path.ending f.file.path ≠ .dots := by
    simp [← FileTree.ending_of_locateLast hplace.located]
  have hdots : Path.ending beside ≠ .dots := by simp [hend']
  -- in the tree of the start there is no link at the end of the path
  have hstart : ∀ target, FileTree.checkPath beside = .ok () →
      FileTree.isLong (Path.besideName name) = false →
      o.tree.at? (place.dropLast ++ [Path.besideName name]) ≠ some (.link target) := by
    intro target hcheck hlong
    have hgo : o.tree.locateLast beside = _ := FileTree.go_beside hnames hnames' hup hup' hend hdots
      habsolute hplace.located fun _ _ _ _ => rfl
    rw [hcheck, hlong] at hgo
    exact hp.hides_link hf ⟨beside, _, hbeside, hgo, rfl⟩
  rw [FileTree.go_beside hnames hnames' hup hup' hend hdots habsolute hplace.located
      fun hcheck hlong target hlink => absurd hlink (hstart target hcheck hlong),
    FileTree.go_beside hnames hnames' hup hup' hend hdots habsolute
      (FileTree.go_mono h.ways.forth hplace.located)
      fun hcheck hlong target hlink =>
        absurd ((h.ways.forth.link _ _).1 hlink) (hstart target hcheck hlong)]

/-! ### What workers do -/

/-- Writing a text to the hidden file changes what stands at its place and nothing else. The file
there has a number of its own, be it an old one or a new one. -/
theorem Intact.writeText_hidden (h : o.Intact t) (hp : o.Workplaces) (hf : o.worked f)
    {beside text : String} (hbeside : f.hidden? o.dryRun = some beside)
    (hwrite : t.writeText beside text = .ok t') :
    ∃ place n, o.HidesAt f place ∧ t.Writes place text t' n
      ∧ (∀ q, q ≠ place → t'.at? q = t.at? q) ∧ t.nextSerial ≤ t'.nextSerial
      ∧ n < t'.nextSerial ∧ o.index ≠ .file n ∧ ∀ q c, t.at? q = some (.file n c) → q = place := by
  obtain ⟨d, n, hgo, hwrites⟩ := FileTree.writeText_eq_ok hwrite
  have hplace := h.hides_of_go hp hf hbeside hgo
  have hn : (∀ q c, t.at? q = some (.file n c) → q = d.place) ∧ n < t'.nextSerial
      ∧ o.index ≠ .file n := by
    rcases hwrites.serial with ⟨⟨c, hd⟩, hserial⟩ | ⟨-, rfl, hserial⟩
    · obtain ⟨hindex, halone⟩ := h.hides_alone hp hf hplace hd
      exact ⟨halone, hserial ▸ h.numbered _ _ _ hd, hindex⟩
    · refine ⟨fun q c hq => absurd (h.numbered q _ c hq) (Nat.lt_irrefl _),
        hserial ▸ Nat.lt_succ_self _, fun hindex => ?_⟩
      exact absurd (Nat.lt_of_lt_of_le (hp.index_lt hindex) h.later) (Nat.lt_irrefl _)
  have hlater : t.nextSerial ≤ t'.nextSerial := by
    rcases hwrites.serial with ⟨-, hserial⟩ | ⟨-, -, hserial⟩ <;> omega
  refine ⟨d.place, n, hplace, hwrites, fun q hq => ?_, hlater, hn.2.1, hn.2.2, hn.1⟩
  exact (hwrites.elsewhere q hq).trans (FileTree.map_change_eq_self fun c hc => hq (hn.1 q c hc))

/-- Writing a text to the hidden file changes the place of the hidden file only. -/
theorem Intact.changesOwn_writeText (h : o.Intact t)
    (hp : o.Workplaces) (hf : o.worked f) {beside text : String}
    (hbeside : f.hidden? o.dryRun = some beside) (hwrite : t.writeText beside text = .ok t') :
    o.ChangesOwn f t t' := by
  obtain ⟨place, n, hplace, hwrites, helsewhere, hlater, hlt, hindex, halone⟩ :=
    h.writeText_hidden hp hf hbeside hwrite
  refine ⟨hwrites.sameWays, hlater, ?_, ?_, ?_⟩
  · exact fun q _ hq => helsewhere q fun hd => hq (hd ▸ hplace)
  · exact fun q hq => .inl (helsewhere q fun hd => hp.hides_ne_stands hf hf hplace hq hd.symm)
  · intro q m c hq
    by_cases hd : q = place
    · subst hd
      obtain ⟨rfl, -⟩ := Entry.file.inj (Option.some.inj (hwrites.here.symm.trans hq))
      refine .inr ⟨hlt, hindex, fun q' c' hq' => ?_⟩
      by_contra hne
      rw [helsewhere q' hne] at hq'
      exact hne (halone q' c' hq')
    · rw [helsewhere q hd] at hq
      exact .inl ⟨c, hq⟩

/-- Moving the hidden file changes its place and that of the file, which then holds the text. -/
theorem Intact.changesOwn_rename (h : o.Intact t)
    (hp : o.Workplaces) (hf : o.worked f) {beside : String}
    (hbeside : f.hidden? o.dryRun = some beside) (hholds : o.Holds f t)
    (hrename : t.rename beside f.file.path = .ok t') : o.ChangesOwn f t t' := by
  obtain ⟨old, new, e, hold, hnew, he, -, -, hat, hserial, hdir⟩ := FileTree.rename_eq_ok hrename
  have hhides := h.hides_of_go hp hf hbeside hold
  have hstands := h.stands_of_go hp hf hnew
  obtain ⟨place, n, text, hplace, htext, hsame⟩ := hholds
  obtain rfl := hhides.unique hplace
  obtain rfl := Option.some.inj (he.symm.trans htext)
  obtain ⟨hindex, halone⟩ := h.hides_alone hp hf hhides htext
  have hne := hp.hides_ne_stands hf hf hhides hstands
  refine ⟨?_, Nat.le_of_eq hserial.symm, ?_, ?_, ?_⟩
  · refine FileTree.sameWays_of_at? hdir fun q => ?_
    rw [hat]
    split
    · rename_i hq
      subst hq
      obtain ⟨m, text', hm, -⟩ := h.work f _ hf hstands
      exact .inr ⟨fun e he => ⟨m, _, Option.some.inj (he.symm.trans hm)⟩,
        fun e he => ⟨n, _, (Option.some.inj he).symm⟩⟩
    · split
      · rename_i hq
        subst hq
        exact .inr ⟨fun e he => ⟨n, _, Option.some.inj (he.symm.trans htext)⟩,
          fun e he => by cases he⟩
      · exact .inl rfl
  · intro q hq hq'
    have hnew : q ≠ new.place := fun hd => hq (hd ▸ hstands)
    have hold : q ≠ old.place := fun hd => hq' (hd ▸ hhides)
    rw [hat, if_neg hnew, if_neg hold]
  · intro q hq
    rw [hat]
    split
    · exact .inr ⟨n, text, rfl, hsame⟩
    · rw [if_neg fun hd => hp.hides_ne_stands hf hf hhides hq hd.symm]
      exact .inl rfl
  · intro q m c hq
    rw [hat] at hq
    split at hq
    · rename_i hnewPlace
      obtain ⟨rfl, -⟩ := Entry.file.inj (Option.some.inj hq)
      refine .inr ⟨hserial ▸ h.numbered _ _ _ htext, hindex, fun q' c' hq' => ?_⟩
      rw [hat] at hq'
      split at hq'
      · rename_i hnewPlace'
        rw [hnewPlace', hnewPlace]
      · split at hq'
        · cases hq'
        · rename_i hnold
          exact absurd (halone q' c' hq') hnold
    · split at hq
      · cases hq
      · exact .inl ⟨c, hq⟩

/-! ### What the index does -/

/-- Adding to the index leaves all else intact. -/
theorem Intact.change_index (h : o.Intact t) (hp : o.Workplaces)
    {serial : Nat} (hindex : o.index = .file serial) (add : Content → Content) :
    o.Intact (t.change serial add) := by
  have hstays : ∀ q n c, t.at? q = some (.file n c) → o.index ≠ .file n →
      (t.change serial add).at? q = some (.file n c) := by
    intro q n c hq hn
    rw [FileTree.at?_change, hq]
    exact FileTree.map_change_eq_self fun c' hc' => hn (by
      obtain ⟨rfl, -⟩ := Entry.file.inj (Option.some.inj hc')
      exact hindex)
  have hwas : ∀ {q n c}, (t.change serial add).at? q = some (.file n c) →
      ∃ c', t.at? q = some (.file n c') := fun hq =>
    FileTree.file_of_map_change ((FileTree.at?_change _ _ _).symm.trans hq)
  refine ⟨h.ways.trans (FileTree.sameWays_change _ _ _), h.later, fun q n c hq => ?_,
    fun q n c hq => ?_, fun q n c hq hn hout => hstays q n c (h.kept q n c hq hn hout) hn,
    fun f q hf hq => ?_⟩
  · obtain ⟨c', hq'⟩ := hwas hq
    exact h.numbered q n c' hq'
  · obtain ⟨c', hq'⟩ := hwas hq
    refine (h.origin q n c' hq').imp id fun ⟨hn, halone⟩ => ⟨hn, fun q' c'' hq'' => ?_⟩
    obtain ⟨c₁, hq₁⟩ := hwas hq''
    exact halone q' c₁ hq₁
  · obtain ⟨n, text, htext, hsame⟩ := h.work f q hf hq
    refine ⟨n, text, hstays q n _ htext ?_, hsame⟩
    rcases h.origin q n _ htext with ⟨c₀, hq₀⟩ | ⟨hn, -⟩
    · exact hp.stands_index hf hq hq₀
    · exact hn

end

end Outset

/-! ### What a workshop keeps to -/

/-- A service that leaves files alone. -/
def EditsNothing {α : Type} (ask : Service α) : Prop := ∀ calls u, (ask calls u).edits = []

/-- The services of a project leave files alone. -/
structure Workshop.EditsNothing (s : Workshop) : Prop where
  judge : ∀ ask, s.enricher.judge = some ask → Marginalia.EditsNothing ask
  describe : ∀ ask, s.enricher.describe = some ask → Marginalia.EditsNothing ask
  ingest : ∀ ask, s.index = .service ask → Marginalia.EditsNothing ask

/-- What a run may leave in a file: the text that was read or, if it is to write at all, one that is
the same without its blocks. -/
def KeepsCode (dryRun : Bool) (f : ParsedFile) (text : String) : Prop :=
  text = f.text ∨ dryRun = false
    ∧ (stripText text f.file.language).text = (stripText f.text f.file.language).text

/-- What a run sets out with that works on files of a tree. -/
def Workshop.outset (s : Workshop) (t : FileTree) (worked : ParsedFile → Prop) : Outset :=
  ⟨t, s.index, s.dryRun, worked, KeepsCode s.dryRun⟩

end Marginalia
