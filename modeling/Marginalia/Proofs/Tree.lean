import Marginalia.Tree

/-!
What the operations on file trees do, told by what stands at each place before and behind them. The
root is always a directory, so files stand elsewhere.
-/

namespace Marginalia

/-- The entry with its content changed, if it is the file with a serial number. -/
def Entry.change (serial : Nat) (f : Content → Content) : Entry → Entry
  | .file n c => .file n (if n = serial then f c else c)
  | e => e

namespace FileTree

variable {t t' : FileTree}

theorem at?_nil (t : FileTree) : t.at? [] = some .directory := rfl

/-- Where something else than a directory stands, or nothing, is not the root. -/
theorem place_ne_nil {l : Location} (h : t.at? l ≠ some .directory) : l ≠ [] := by
  rintro rfl
  exact h (at?_nil t)

/-- What stands somewhere is an entry, unless it is the root. -/
theorem mem_of_at? {place : Location} {e : Entry} (hplace : place ≠ [])
    (h : t.at? place = some e) : (place, e) ∈ t.entries := by
  rw [at?, if_neg hplace] at h
  obtain ⟨before, after, hentries, -⟩ := List.lookup_eq_some_iff.1 h
  rw [hentries]
  exact List.mem_append_right _ List.mem_cons_self

theorem lookup_filter_ne {l q : Location} (h : q ≠ l) (es : List (Location × Entry)) :
    (es.filter (·.1 != l)).lookup q = es.lookup q := by
  induction es with
  | nil => rfl
  | cons x es ih =>
    obtain ⟨place, e⟩ := x
    by_cases hx : place = l
    · have hq : (q == place) = false := by simpa [hx] using h
      simp [hx, List.lookup_cons, ih, hx ▸ hq]
    · simp [hx, List.lookup_cons, ih]

theorem lookup_filter_self (l : Location) (es : List (Location × Entry)) :
    (es.filter (·.1 != l)).lookup l = none := by
  refine List.lookup_eq_none_iff.2 fun x hx => ?_
  have hne : x.1 ≠ l := by simpa using (List.mem_filter.1 hx).2
  simpa using hne.symm

/-- What is put at a place stands there, and all else stays. -/
theorem at?_put {l : Location} (h : l ≠ []) (e : Entry) (q : Location) :
    (t.put l e).at? q = if q = l then some e else t.at? q := by
  split
  · rename_i hq
    rw [hq, at?_put_self t e h]
  · rename_i hq
    have hne : (q == l) = false := by simpa using hq
    simp [at?, put, List.lookup_cons, hne, lookup_filter_ne hq]

/-- What is erased is gone, and all else stays. -/
theorem at?_erase {l : Location} (h : l ≠ []) (q : Location) :
    (t.erase l).at? q = if q = l then none else t.at? q := by
  split
  · rename_i hq
    simp [at?, erase, hq, h, lookup_filter_self]
  · rename_i hq
    simp [at?, erase, lookup_filter_ne hq]

theorem entries_change (serial : Nat) (f : Content → Content) :
    (t.change serial f).entries = t.entries.map fun x => (x.1, x.2.change serial f) := by
  refine List.map_congr_left fun x _ => ?_
  obtain ⟨l, e⟩ := x
  cases e with
  | file n c => by_cases hn : n = serial <;> simp [Entry.change, hn]
  | directory => rfl
  | link target => rfl

theorem lookup_map (g : Entry → Entry) (es : List (Location × Entry)) (q : Location) :
    (es.map fun x => (x.1, g x.2)).lookup q = (es.lookup q).map g := by
  induction es with
  | nil => rfl
  | cons x es ih =>
    rw [List.map_cons, List.lookup_cons, List.lookup_cons, ih]
    cases q == x.1 <;> rfl

/-- A file is changed wherever it stands. -/
theorem at?_change (serial : Nat) (f : Content → Content) (q : Location) :
    (t.change serial f).at? q = (t.at? q).map (Entry.change serial f) := by
  unfold at?
  split
  · rfl
  · rw [entries_change, lookup_map]

/-- Where the entry is not the file with the serial number, nothing changes. -/
theorem map_change_eq_self {serial : Nat} {f : Content → Content} {e : Option Entry}
    (h : ∀ c, e ≠ some (.file serial c)) : e.map (Entry.change serial f) = e := by
  cases e with
  | none => rfl
  | some e =>
    cases e with
    | directory => rfl
    | link target => rfl
    | file n c =>
      have hn : n ≠ serial := fun hn => h c (hn ▸ rfl)
      simp [Entry.change, hn]

/-- Files keep their serial numbers when they are changed. -/
theorem file_of_map_change {serial n : Nat} {f : Content → Content} {c : Content}
    {e : Option Entry} (h : e.map (Entry.change serial f) = some (.file n c)) :
    ∃ c', e = some (.file n c') := by
  cases e with
  | none => cases h
  | some e =>
    cases e with
    | directory => cases h
    | link target => cases h
    | file m c' =>
      obtain ⟨rfl, -⟩ := Entry.file.inj (Option.some.inj h)
      exact ⟨c', rfl⟩

/-! ### Places with one name -/

/-- At a place there is no link, and no file with another name as well. -/
def IsAlone (t : FileTree) (place : Location) : Prop :=
  (∀ target, t.at? place ≠ some (.link target))
    ∧ ∀ n c, t.at? place = some (.file n c) → ∀ q c', t.at? q = some (.file n c') → q = place

/-- There is no link at a place, and no file with another name as well. -/
def isAlone (t : FileTree) (place : Location) : Bool :=
  match t.at? place with
  | some (.link _) => false
  | some (.file n _) => t.entries.all fun x =>
    match x.2 with
    | .file m _ => x.1 == place || m != n
    | _ => true
  | _ => true

theorem isAlone_of_check {place : Location} (h : t.isAlone place = true) : t.IsAlone place := by
  constructor
  · intro target hlink
    simp [isAlone, hlink] at h
  · intro n c hfile q c' hq
    have hmem := mem_of_at? (place_ne_nil (t := t) (by simp [hq])) hq
    simp only [isAlone, hfile] at h
    simpa using List.all_eq_true.1 h _ hmem

/-! ### Writing -/

/-- What writing a text to a path does: there stands a file with the text, the one that stood there
or a new one, and any other name of it is a name of the same text. -/
structure Writes (t : FileTree) (place : Location) (text : String) (t' : FileTree) (n : Nat) :
    Prop where
  serial : (∃ c, t.at? place = some (.file n c)) ∧ t'.nextSerial = t.nextSerial
    ∨ t.at? place = none ∧ n = t.nextSerial ∧ t'.nextSerial = t.nextSerial + 1
  here : t'.at? place = some (.file n (.text text))
  elsewhere : ∀ q, q ≠ place → t'.at? q = (t.at? q).map (Entry.change n fun _ => .text text)
  workingDirectory : t'.workingDirectory = t.workingDirectory

theorem openFile_eq_ok {path : String} {n : Nat} (h : t.openFile path = .ok (n, t')) :
    ∃ d, t.go (· != .slash) path = .ok d
      ∧ ((∃ c, t.at? d.place = some (.file n c)) ∧ t' = t
        ∨ t.at? d.place = none ∧ n = t.nextSerial
          ∧ t' = { t.put d.place (.file n (.text "")) with nextSerial := n + 1 }) := by
  unfold openFile at h
  cases hgo : t.go (· != .slash) path with
  | error e => simp [hgo, bind, Except.bind] at h
  | ok d =>
    refine ⟨d, rfl, ?_⟩
    simp only [hgo, bind, Except.bind] at h
    split at h
    · cases h
    · split at h
      · rename_i serial c hd
        obtain ⟨rfl, rfl⟩ := Prod.mk.inj (Except.ok.inj h)
        exact .inl ⟨⟨c, hd⟩, rfl⟩
      · rename_i hd
        obtain ⟨rfl, rfl⟩ := Prod.mk.inj (Except.ok.inj h)
        exact .inr ⟨hd, rfl, rfl⟩
      · cases h

theorem writeText_eq_ok {path text : String} (h : t.writeText path text = .ok t') :
    ∃ d n, t.go (· != .slash) path = .ok d ∧ t.Writes d.place text t' n := by
  unfold writeText at h
  cases hopen : t.openFile path with
  | error e => simp [hopen, bind, Except.bind] at h
  | ok opened =>
    obtain ⟨n, t₁⟩ := opened
    simp only [hopen, bind, Except.bind] at h
    obtain rfl := Except.ok.inj h
    obtain ⟨d, hgo, ⟨⟨c, hd⟩, rfl⟩ | ⟨hd, rfl, rfl⟩⟩ := openFile_eq_ok hopen
    · refine ⟨d, n, hgo, .inl ⟨⟨c, hd⟩, rfl⟩, ?_, fun q _ => at?_change _ _ _, rfl⟩
      rw [at?_change, hd]
      simp [Entry.change]
    · have hplace : d.place ≠ [] := place_ne_nil (t := t) (by simp [hd])
      have hput := at?_put (t := t) hplace (.file t.nextSerial (.text ""))
      refine ⟨d, t.nextSerial, hgo, .inr ⟨hd, rfl, rfl⟩, ?_, fun q hq => ?_, rfl⟩
      · rw [at?_change]
        refine (congrArg _ ((hput d.place).trans (if_pos rfl))).trans ?_
        simp [Entry.change]
      · rw [at?_change]
        exact congrArg _ ((hput q).trans (if_neg hq))

/-- A text can be written where a path leads to a file or to nothing, but for a slash behind it. -/
theorem exists_writeText_iff {path text : String} :
    (∃ t', t.writeText path text = .ok t') ↔ ∃ d, t.go (· != .slash) path = .ok d
      ∧ d.ending ≠ .slash ∧ ∀ e, t.at? d.place = some e → ∃ n c, e = .file n c := by
  unfold writeText openFile
  cases hgo : t.go (· != .slash) path with
  | error e => simp [bind, Except.bind]
  | ok d =>
    simp only [bind, Except.bind, pure, Except.pure]
    by_cases hend : d.ending = .slash
    · simp [hend]
    · cases hplace : t.at? d.place with
      | none => simp [hend, hplace]
      | some e => cases e <;> simp [hend, hplace]

/-- Whether a text can be written, and why not, hangs on where the path leads and on what stands
there. -/
theorem writeText_congr {path : String} (hgo : t'.go (· != .slash) path = t.go (· != .slash) path)
    (hat : ∀ d, t.go (· != .slash) path = .ok d → t'.at? d.place = t.at? d.place) (text : String) :
    (t'.writeText path text).map (fun _ => ()) = (t.writeText path text).map fun _ => () := by
  unfold writeText openFile
  rw [hgo]
  cases h : t.go (· != .slash) path with
  | error e => rfl
  | ok d =>
    simp only [bind, Except.bind, hat d h]
    by_cases hend : d.ending = .slash
    · simp only [hend, if_true]
      rfl
    · simp only [hend, if_false]
      cases t.at? d.place with
      | none => rfl
      | some e => cases e <;> rfl

/-! ### Moving and removing -/

/-- What moving an entry to another path does. -/
theorem rename_eq_ok {source target : String} (h : t.rename source target = .ok t') :
    ∃ old new e, t.locateLast source = .ok old ∧ t.locateLast target = .ok new
      ∧ t.at? old.place = some e ∧ e ≠ .directory ∧ t.at? new.place ≠ some .directory
      ∧ (∀ q, t'.at? q = if q = new.place then some e
          else if q = old.place then none else t.at? q)
      ∧ t'.nextSerial = t.nextSerial ∧ t'.workingDirectory = t.workingDirectory := by
  unfold rename at h
  cases hold : t.locateLast source with
  | error e => simp [hold, bind, Except.bind] at h
  | ok old =>
  cases hnew : t.locateLast target with
  | error e => simp [hold, hnew, bind, Except.bind] at h
  | ok new =>
  simp only [hold, hnew, bind, Except.bind] at h
  split at h
  · cases h
  · split at h
    · cases h
    · cases h
    · rename_i e hne he
      have hne : e ≠ .directory := hne
      have hold' : old.place ≠ [] := place_ne_nil (t := t) (by simp [he, hne])
      refine ⟨old, new, e, rfl, rfl, he, hne, ?_⟩
      split at h
      · cases h
      split at h
      · cases h
      · rename_i hthere
        have hnew' : new.place ≠ [] := place_ne_nil hthere
        refine ⟨hthere, ?_⟩
        split at h
        · rename_i hsame
          obtain rfl := Except.ok.inj h
          refine ⟨fun q => ?_, rfl, rfl⟩
          split
          · rename_i hq
            rw [hq, ← hsame, he]
          · rename_i hq
            rw [if_neg (hsame ▸ hq)]
        · obtain rfl := Except.ok.inj h
          exact ⟨fun q => by rw [at?_put hnew', at?_erase hold'], rfl, rfl⟩

/-- Only paths that end with a name can be moved from and to. -/
theorem ending_of_rename {source target : String} {old new : Destination}
    (h : t.rename source target = .ok t') (hold : t.locateLast source = .ok old)
    (hnew : t.locateLast target = .ok new) : old.ending = .name ∧ new.ending = .name := by
  unfold rename at h
  simp only [hold, hnew, bind, Except.bind] at h
  split at h
  · cases h
  rename_i hdots
  split at h
  · cases h
  · cases h
  · split at h
    · cases h
    rename_i hslash
    cases hend : old.ending <;> cases hend' : new.ending <;> simp [hend, hend'] at hdots hslash ⊢

/-- An entry can be moved if neither it nor what stands where it is to go is a directory. -/
theorem exists_rename {source target : String} {old new : Destination} {e : Entry}
    (hold : t.locateLast source = .ok old) (hnew : t.locateLast target = .ok new)
    (hend : old.ending = .name) (hend' : new.ending = .name) (he : t.at? old.place = some e)
    (hne : e ≠ .directory) (hthere : t.at? new.place ≠ some .directory) :
    ∃ t', t.rename source target = .ok t' := by
  unfold rename
  simp only [hold, hnew, bind, Except.bind, hend, hend', he]
  cases e with
  | directory => exact absurd rfl hne
  | file n c => by_cases hsame : old.place = new.place <;> simp [hthere, hsame, pure, Except.pure]
  | link l => by_cases hsame : old.place = new.place <;> simp [hthere, hsame, pure, Except.pure]

/-! ### Making directories -/

/-- One tree is another one with directories where nothing stood. -/
structure AddsDirectories (t t' : FileTree) : Prop where
  entry : ∀ q, t'.at? q = t.at? q ∨ t.at? q = none ∧ t'.at? q = some .directory
  nextSerial : t'.nextSerial = t.nextSerial
  workingDirectory : t'.workingDirectory = t.workingDirectory

theorem AddsDirectories.refl (t : FileTree) : t.AddsDirectories t := ⟨fun _ => .inl rfl, rfl, rfl⟩

theorem AddsDirectories.trans {t'' : FileTree} (h : t.AddsDirectories t')
    (h' : t'.AddsDirectories t'') : t.AddsDirectories t'' where
  entry q := by
    rcases h.entry q with hq | ⟨hnone, hq⟩ <;> rcases h'.entry q with hq' | ⟨hnone', hq'⟩
    · exact .inl (hq'.trans hq)
    · exact .inr ⟨hq ▸ hnone', hq'⟩
    · exact .inr ⟨hnone, hq'.trans hq⟩
    · exact .inr ⟨hnone, hq'⟩
  nextSerial := h'.nextSerial.trans h.nextSerial
  workingDirectory := h'.workingDirectory.trans h.workingDirectory

theorem addsDirectories_makeDirectory {path : String} (h : t.makeDirectory path = .ok t') :
    t.AddsDirectories t' := by
  unfold makeDirectory at h
  cases hd : t.locateLast path with
  | error e => simp [hd, bind, Except.bind] at h
  | ok d =>
    simp only [hd, bind, Except.bind] at h
    split at h
    · rename_i hnone
      have hplace : d.place ≠ [] := place_ne_nil (t := t) (by simp [hnone])
      obtain rfl := Except.ok.inj h
      refine ⟨fun q => ?_, rfl, rfl⟩
      rw [at?_put hplace]
      split
      · rename_i hq
        exact .inr ⟨hq ▸ hnone, rfl⟩
      · exact .inl rfl
    · split at h
      · obtain rfl := Except.ok.inj h
        exact .refl t
      · cases h

theorem makeDirectories_cons (start name : String) (above : List String) :
    t.makeDirectories start (name :: above)
      = match t.makeDirectory (Path.ofNames start (name :: above).reverse) with
        | .error .notFound => (t.makeDirectories start above).bind
          (·.makeDirectory (Path.ofNames start (name :: above).reverse))
        | made => made := Eq.refl _

/-- What holds of a tree and stays with each directory that is made holds when all are made. -/
theorem makeParents_induction {P : FileTree → Prop} {path : String} (hstart : P t)
    (hstep : ∀ {t t'} {path : String}, P t → t.makeDirectory path = .ok t' → P t')
    (h : t.makeParents path = .ok t') : P t' := by
  unfold makeParents at h
  generalize (Path.names path).reverse.tail = names at h
  induction names generalizing t' with
  | nil =>
    obtain rfl := Except.ok.inj h
    exact hstart
  | cons name above ih =>
    rw [makeDirectories_cons] at h
    split at h
    · cases habove : t.makeDirectories path above with
      | error e => simp [habove, Except.bind] at h
      | ok t₁ =>
        simp only [habove, Except.bind] at h
        exact hstep (ih habove) h
    · exact hstep hstart h

theorem addsDirectories_makeParents {path : String} (h : t.makeParents path = .ok t') :
    t.AddsDirectories t' :=
  makeParents_induction (.refl t) (fun hadds h => hadds.trans (addsDirectories_makeDirectory h)) h

end FileTree

end Marginalia
