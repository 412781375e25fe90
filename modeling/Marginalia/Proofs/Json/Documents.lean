import Marginalia.Proofs.Json.Values
import Marginalia.RunManifest
import Marginalia.RunReport

/-!
The documents of a run. A unit, a record of a manifest and a report are read from their text as they
were written, as long as their counts fit into sixty-four bits and the numerals of their confidences
stand for them.
-/

namespace Marginalia

open Json

/-! ### Words -/

theorem Source.ofName?_name (s : Source) : Source.ofName? s.name = some s := by cases s <;> decide

theorem DiagnosticKind.ofName?_name (k : DiagnosticKind) :
    DiagnosticKind.ofName? k.name = some k := by
  cases k <;> decide

theorem roundTrips_language (l : Language) : RoundTrips l :=
  roundTrips_of_string rfl l.ofName?_name

theorem roundTrips_source (s : Source) : RoundTrips s := roundTrips_of_string rfl s.ofName?_name

theorem roundTrips_kind (k : DiagnosticKind) : RoundTrips k :=
  roundTrips_of_string rfl k.ofName?_name

theorem roundTrips_unitId (id : UnitId) : RoundTrips id := roundTrips_of_string rfl rfl

theorem roundTrips_unitIds (ids : List UnitId) : RoundTrips ids :=
  roundTrips_list fun id _ => roundTrips_unitId id

/-! ### Units -/

/-- The bounds of a range are counts. -/
structure LineRange.IsCounted (r : LineRange) : Prop where
  start : r.start < Numeral.countBound
  stop : r.stop < Numeral.countBound

theorem roundTrips_lineRange {r : LineRange} (h : r.IsCounted) : RoundTrips r := by
  have hstart := roundTrips_nat h.start
  have hstop := roundTrips_nat h.stop
  refine roundTrips_of_fields rfl (fun _ => rfl) rfl rfl ?_ ?_
  · simp only [List.forall_mem_cons]
    exact ⟨hstart.text, hstop.text, List.forall_mem_nil _⟩
  · simp [Record.field, List.lookup_cons, hstart.value, hstop.value]

/-- The shortest numeral of a value stands for it. -/
def Single.IsPrinted (c : Single) : Prop := ofJson? (toJson c) = some c

theorem roundTrips_verdict {v : Verdict} (h : Single.IsPrinted v.confidence) : RoundTrips v := by
  have hreusable := roundTrips_bool v.reusable
  have hreason := roundTrips_string v.reason
  have hconfidence := roundTrips_single h
  have hsource := roundTrips_source v.source
  refine roundTrips_of_fields rfl (fun _ => rfl) rfl rfl ?_ ?_
  · simp only [List.forall_mem_cons]
    exact ⟨hreusable.text, hreason.text, hconfidence.text, hsource.text, List.forall_mem_nil _⟩
  · simp [Record.field, List.lookup_cons, hreusable.value, hreason.value, hconfidence.value,
      hsource.value]

theorem roundTrips_option_string (o : Option String) : RoundTrips o :=
  roundTrips_option rfl fun s _ => roundTrips_string s

theorem roundTrips_option_annotation (o : Option Annotation) : RoundTrips o :=
  roundTrips_option rfl fun a _ => roundTrips_annotation a

/-- The lines of a unit are counts, and the numeral of its confidence stands for it. -/
structure CodeUnit.IsExact (u : CodeUnit) : Prop where
  range : u.range.IsCounted
  confidence : ∀ v ∈ u.verdict, Single.IsPrinted v.confidence

/-- A unit is read as it was written. -/
theorem roundTrips_codeUnit {u : CodeUnit} (h : u.IsExact) : RoundTrips u := by
  have hid := roundTrips_unitId u.id
  have hfile := roundTrips_string u.file
  have hlanguage := roundTrips_language u.language
  have hscope := roundTrips_option_string u.scope
  have hname := roundTrips_string u.name
  have hsignature := roundTrips_string u.signature
  have hrange := roundTrips_lineRange h.range
  have hbody := roundTrips_string u.body
  have hcallsOut := roundTrips_strings u.callsOut
  have hcallsIn := roundTrips_unitIds u.callsIn
  have hverdict : RoundTrips u.verdict :=
    roundTrips_option rfl fun v hv => roundTrips_verdict (h.confidence v hv)
  have hannotation := roundTrips_option_annotation u.annotation
  have hindexId := roundTrips_option_string u.indexId
  refine roundTrips_of_fields rfl (fun _ => rfl) rfl rfl ?_ ?_
  · simp only [List.forall_mem_cons]
    exact ⟨hid.text, hfile.text, hlanguage.text, hscope.text, hname.text, hsignature.text,
      hrange.text, hbody.text, hcallsOut.text, hcallsIn.text, hverdict.text, hannotation.text,
      hindexId.text, List.forall_mem_nil _⟩
  · simp [Record.field, Record.optional, List.lookup_cons, hid.value, hfile.value,
      hlanguage.value, hscope.value, hname.value, hsignature.value, hrange.value, hbody.value,
      hcallsOut.value, hcallsIn.value, hverdict.value, hannotation.value, hindexId.value]

/-! ### Manifests -/

/-- The lines of a record are counts, and the numeral of its confidence stands for it. -/
structure ManifestRecord.IsExact (r : ManifestRecord) : Prop where
  range : r.range.IsCounted
  confidence : ∀ c ∈ r.confidence, Single.IsPrinted c

/-- A record of a manifest is read as it was written. -/
theorem roundTrips_manifestRecord {r : ManifestRecord} (h : r.IsExact) : RoundTrips r := by
  have hid := roundTrips_unitId r.id
  have hfile := roundTrips_string r.file
  have hlanguage := roundTrips_language r.language
  have hscope := roundTrips_option_string r.scope
  have hname := roundTrips_string r.name
  have hsignature := roundTrips_string r.signature
  have hrange := roundTrips_lineRange h.range
  have hbody := roundTrips_string r.body
  have hcallsOut := roundTrips_strings r.callsOut
  have hcallsIn := roundTrips_unitIds r.callsIn
  have hreusable := roundTrips_bool r.reusable
  have hreason := roundTrips_option_string r.reason
  have hconfidence : RoundTrips r.confidence :=
    roundTrips_option rfl fun c hc => roundTrips_single (h.confidence c hc)
  have hsource : RoundTrips r.source := roundTrips_option rfl fun s _ => roundTrips_source s
  have hannotation := roundTrips_option_annotation r.annotation
  have hindexId := roundTrips_option_string r.indexId
  refine roundTrips_of_fields rfl (fun _ => rfl) rfl rfl ?_ ?_
  · simp only [List.forall_mem_cons]
    exact ⟨hid.text, hfile.text, hlanguage.text, hscope.text, hname.text, hsignature.text,
      hrange.text, hbody.text, hcallsOut.text, hcallsIn.text, hreusable.text, hreason.text,
      hconfidence.text, hsource.text, hannotation.text, hindexId.text, List.forall_mem_nil _⟩
  · simp [Record.field, Record.optional, List.lookup_cons, hid.value, hfile.value,
      hlanguage.value, hscope.value, hname.value, hsignature.value, hrange.value, hbody.value,
      hcallsOut.value, hcallsIn.value, hreusable.value, hreason.value, hconfidence.value,
      hsource.value, hannotation.value, hindexId.value]

/-! ### Reports -/

/-- A diagnostic is read as it was written, with or without a unit. -/
theorem roundTrips_diagnostic (d : Diagnostic) : RoundTrips d := by
  obtain ⟨path, unit, kind, message⟩ := d
  have hpath := roundTrips_string path
  have hkind := roundTrips_kind kind
  have hmessage := roundTrips_string message
  cases unit with
  | none =>
    have hjson : toJson (⟨path, none, kind, message⟩ : Diagnostic) = ofFields
        [("path", toJson path), ("kind", toJson kind), ("message", toJson message)] := rfl
    refine roundTrips_of_fields hjson (fun _ => rfl) rfl rfl ?_ ?_
    · simp only [List.forall_mem_cons]
      exact ⟨hpath.text, hkind.text, hmessage.text, List.forall_mem_nil _⟩
    · simp [Record.field, Record.fieldOr, List.lookup_cons, hpath.value, hkind.value,
        hmessage.value]
  | some id =>
    have hunit : RoundTrips (some id) := roundTrips_option rfl fun id _ => roundTrips_unitId id
    have hjson : toJson (⟨path, some id, kind, message⟩ : Diagnostic) = ofFields
        [("path", toJson path), ("unit", toJson (some id)), ("kind", toJson kind),
          ("message", toJson message)] := rfl
    refine roundTrips_of_fields hjson (fun _ => rfl) rfl rfl ?_ ?_
    · simp only [List.forall_mem_cons]
      exact ⟨hpath.text, hunit.text, hkind.text, hmessage.text, List.forall_mem_nil _⟩
    · simp [Record.field, Record.fieldOr, List.lookup_cons, hpath.value, hunit.value,
        hkind.value, hmessage.value]

/-- The numbers of a report are counts, and the names of its languages rise. -/
structure RunReport.IsExact (r : RunReport) : Prop where
  filesScanned : r.filesScanned < Numeral.countBound
  filesChanged : r.filesChanged < Numeral.countBound
  units : r.units < Numeral.countBound
  reusable : r.reusable < Numeral.countBound
  annotationsInserted : r.annotationsInserted < Numeral.countBound
  blocksStripped : r.blocksStripped < Numeral.countBound
  callEdges : r.callEdges < Numeral.countBound
  modelVerdicts : r.modelVerdicts < Numeral.countBound
  fallbackVerdicts : r.fallbackVerdicts < Numeral.countBound
  quotaUsed : r.quotaUsed < Numeral.countBound
  indexed : r.indexed < Numeral.countBound
  milliseconds : r.milliseconds < Numeral.countBound
  files : ∀ p ∈ r.languages, p.2 < Numeral.countBound
  languages : KeysRise r.languages

/-- A report is read as it was written. -/
theorem roundTrips_runReport {r : RunReport} (h : r.IsExact) : RoundTrips r := by
  have hfilesScanned := roundTrips_nat h.filesScanned
  have hfilesChanged := roundTrips_nat h.filesChanged
  have hunits := roundTrips_nat h.units
  have hreusable := roundTrips_nat h.reusable
  have hannotationsInserted := roundTrips_nat h.annotationsInserted
  have hblocksStripped := roundTrips_nat h.blocksStripped
  have hcallEdges := roundTrips_nat h.callEdges
  have hmodelVerdicts := roundTrips_nat h.modelVerdicts
  have hfallbackVerdicts := roundTrips_nat h.fallbackVerdicts
  have hquotaUsed := roundTrips_nat h.quotaUsed
  have hindexed := roundTrips_nat h.indexed
  have hfiles : ∀ p ∈ r.languages, RoundTrips p.2 := fun p hp => roundTrips_nat (h.files p hp)
  have hmilliseconds := roundTrips_nat h.milliseconds
  have hcancelled := roundTrips_bool r.cancelled
  have hdiagnostics : RoundTrips r.diagnostics := roundTrips_list fun d _ => roundTrips_diagnostic d
  refine roundTrips_of_fields rfl (fun _ => rfl) rfl rfl ?_ ?_
  · simp only [List.forall_mem_cons]
    exact ⟨hfilesScanned.text, hfilesChanged.text, hunits.text, hreusable.text,
      hannotationsInserted.text, hblocksStripped.text, hcallEdges.text, hmodelVerdicts.text,
      hfallbackVerdicts.text, hquotaUsed.text, hindexed.text,
      fun sp depth => readsBack_ofMap sp depth hfiles, hmilliseconds.text, hcancelled.text,
      hdiagnostics.text, List.forall_mem_nil _⟩
  · simp [Record.field, List.lookup_cons, hfilesScanned.value, hfilesChanged.value,
      hunits.value, hreusable.value, hannotationsInserted.value, hblocksStripped.value,
      hcallEdges.value, hmodelVerdicts.value, hfallbackVerdicts.value, hquotaUsed.value,
      hindexed.value, toMap?_ofMap h.languages hfiles, hmilliseconds.value, hcancelled.value,
      hdiagnostics.value]

end Marginalia
