import TestImpact.Proofs.Json.Records
import TestImpact.Proofs.Trace.Outcome
import TestImpact.Report.Render

/-!
# Reports lose nothing in their JSON form

Every record of a report is decoded from the value that it is written as, whatever is left out
there, and so is the whole report from its text (`read?_json`). What is rendered from the decoded
report cannot differ then.
-/

namespace TestImpact

open Json (Faithful slots optional_some faithful_slots exact_some record?_slots)

/-! ## Parts without numbers -/

theorem TraceEntry.faithful (e : TraceEntry) : Faithful TraceEntry.ofJson? e.toJson e := by
  have htests := Json.faithful_list e.tests fun s _ => Json.faithful_string s
  have hslots : e.toJson = .object (slots [("method", some (.string e.method)),
      ("tests", some (.array (e.tests.map .string)))]) := rfl
  rw [hslots]
  apply faithful_slots
  · rw [TraceEntry.ofJson?, record?_slots rfl (by decide)]
    simp [Json.string?, htests.decode_eq]
  · simp [Json.Exact.string, htests.exact]

namespace Diagnostic

/-- Whether a diagnostic has no data but, perhaps, the id of a method. -/
def HasPlainData (d : Diagnostic) : Prop :=
  ∀ x ∈ d.data, ∃ id : String, x = .object [("method_id", .string id)]

theorem faithful_methodId (id : String) : Faithful (Json.data? Report.dataDepth)
    (.object [("method_id", .string id)]) (.object [("method_id", .string id)]) :=
  ⟨rfl, .object (by simp [Json.Exact.string]), nofun⟩

/-- A diagnostic is read back, if its data is plain. -/
theorem faithful {d : Diagnostic} (h : d.HasPlainData) :
    Faithful Diagnostic.ofJson? d.toJson d := by
  have hdata : ∀ x ∈ d.data, Faithful (Json.data? Report.dataDepth) (id x) x := by
    intro x hx
    obtain ⟨methodId, rfl⟩ := h x hx
    exact faithful_methodId methodId
  have hseverity : Severity.ofJson? (.string d.severity.name) = some d.severity :=
    d.severity.ofName?_name
  have hslots : d.toJson = .object (slots [("severity", some (.string d.severity.name)),
      ("code", some (.string d.code)), ("message", some (.string d.message)),
      ("method", d.method.map .string), ("data", d.data.map id),
      ("fingerprint", d.fingerprint.map .string)]) := by
    simp [toJson, slots, optional_some]
  rw [hslots]
  apply faithful_slots
  · rw [Diagnostic.ofJson?, record?_slots rfl (by decide)]
    have hdata : Json.optional? (Json.data? Report.dataDepth) d.data = some d.data := by
      simpa using Json.optional?_map hdata
    simp [Json.string?, hseverity, Json.optional?_string, hdata]
  · simp only [List.forall_mem_cons]
    exact ⟨exact_some (.string _), exact_some (.string _), exact_some (.string _),
      Json.exact_string _, Json.exact_map hdata, Json.exact_string _, List.forall_mem_nil _⟩

/-- The diagnostics that tracing leaves have no other data. -/
theorem hasPlainData_of_mem_resolve {tables : ReferenceTables} {changed : List String}
    {d : Diagnostic} (h : d ∈ (tables.resolve changed).diagnostics) : d.HasPlainData := by
  rw [resolve_diagnostics, List.mem_filterMap] at h
  obtain ⟨outcome, hmem, hd⟩ := h
  obtain ⟨method, -, rfl⟩ := List.mem_map.mp hmem
  unfold ReferenceTables.trace at hd
  split at hd
  · cases hd
    nofun
  · next id _ =>
    split at hd
    · cases hd
      exact fun _ hx => ⟨id, (Option.some.inj hx).symm⟩
    · cases hd

end Diagnostic

namespace Report

theorem Tool.faithful (t : Tool) : Faithful Tool.ofJson? t.toJson t := by
  have hslots : t.toJson = .object (slots [("name", some (.string t.name)),
      ("version", some (.string t.version))]) := rfl
  rw [hslots]
  apply faithful_slots
  · rw [Tool.ofJson?, record?_slots rfl (by decide)]
    rfl
  · simp [Json.Exact.string]

theorem TableInputs.faithful (t : TableInputs) : Faithful TableInputs.ofJson? t.toJson t := by
  have hslots : t.toJson = .object (slots [("methods", some (.string t.methods)),
      ("tests", some (.string t.tests)), ("coverage", some (.string t.coverage))]) := rfl
  rw [hslots]
  apply faithful_slots
  · rw [TableInputs.ofJson?, record?_slots rfl (by decide)]
    rfl
  · simp [Json.Exact.string]

/-! ## Parts with numbers -/

theorem faithful_number {n : Nat} (h : n < numberBound) :
    Faithful (Json.natural? numberBound) (.nat n) n :=
  Json.faithful_nat (Nat.le_refl _) h

theorem faithful_count {n : Nat} (h : n < countBound) :
    Faithful (Json.natural? countBound) (.nat n) n :=
  Json.faithful_nat (by decide) h

theorem Run.faithful {r : Run} (h : ∀ n ∈ r.durationMs, n < numberBound) :
    Faithful Run.ofJson? r.toJson r := by
  have hduration : ∀ n ∈ r.durationMs, Faithful (Json.natural? numberBound) (.nat n) n :=
    fun n hn => faithful_number (h n hn)
  have hslots : r.toJson = .object (slots [("started_at", some (.string r.startedAt)),
      ("ended_at", r.endedAt.map .string), ("duration_ms", r.durationMs.map .nat)]) := by
    simp [Run.toJson, slots, optional_some]
  rw [hslots]
  apply faithful_slots
  · rw [Run.ofJson?, record?_slots rfl (by decide)]
    simp [Json.string?, Json.optional?_string, Json.optional?_map hduration]
  · simp only [List.forall_mem_cons]
    exact ⟨exact_some (.string _), Json.exact_string _, Json.exact_map hduration,
      List.forall_mem_nil _⟩

theorem Inputs.faithful {i : Inputs} (h : ∀ n ∈ i.changeNumber, n < numberBound) :
    Faithful Inputs.ofJson? i.toJson i := by
  have hnumber : ∀ n ∈ i.changeNumber, Faithful (Json.natural? numberBound) (.nat n) n :=
    fun n hn => faithful_number (h n hn)
  have htables : ∀ t ∈ i.tables, Faithful TableInputs.ofJson? t.toJson t :=
    fun t _ => t.faithful
  have hslots : i.toJson = .object (slots [("source", some (.string i.source)),
      ("repository", i.repository.map .string), ("change_number", i.changeNumber.map .nat),
      ("path", i.path.map .string), ("tables", i.tables.map (·.toJson))]) := by
    simp [Inputs.toJson, slots, optional_some]
  rw [hslots]
  apply faithful_slots
  · rw [Inputs.ofJson?, record?_slots rfl (by decide)]
    simp [Json.string?, Json.optional?_string, Json.optional?_map hnumber,
      Json.optional?_map htables]
  · simp only [List.forall_mem_cons]
    exact ⟨exact_some (.string _), Json.exact_string _, Json.exact_map hnumber,
      Json.exact_string _, Json.exact_map htables, List.forall_mem_nil _⟩

/-- The value of a count that is left out if it is zero. -/
def countValue (n : Nat) : Option Json := if n = 0 then none else some (.nat n)

theorem countToJson_eq (name : String) (n : Nat) :
    countToJson name n = Json.optional name (countValue n) := by
  simp only [countToJson, countValue]
  split <;> rfl

/-- The default of a count is what is left out. -/
theorem withDefault?_countValue {n : Nat} (h : n < countBound) :
    Json.withDefault? (Json.natural? countBound) 0 (countValue n) = some n := by
  have hdecode : ∀ x, Json.withDefault? (Json.natural? countBound) 0 (some x) =
      Json.natural? countBound x := fun _ => rfl
  simp only [countValue]
  split
  · next hzero => rw [hzero]; rfl
  · rw [hdecode, (faithful_count h).decode_eq]

theorem exact_countValue {n : Nat} (h : n < countBound) : ∀ y ∈ countValue n, Json.Exact y := by
  intro y hy
  simp only [countValue] at hy
  split at hy
  · cases hy
  · exact exact_some (faithful_count h).exact y hy

/-- Whether every count has the size of a count. -/
structure Data.InRange (d : Data) : Prop where
  filesTotal : d.filesTotal < countBound
  filesScanned : d.filesScanned < countBound
  filesSkipped : d.filesSkipped < countBound
  filesWithoutPatch : d.filesWithoutPatch < countBound
  changedMethodsTotal : d.changedMethodsTotal < countBound
  resolvedMethods : d.resolvedMethods < countBound
  unresolvedMethods : d.unresolvedMethods < countBound
  changeNumber : ∀ n ∈ d.inputs.changeNumber, n < numberBound

/-- The counts of a report are read back. -/
theorem Data.faithful {d : Data} (h : d.InRange) : Faithful Data.ofJson? d.toJson d := by
  have hinputs := Inputs.faithful h.changeNumber
  have hslots : d.toJson = .object (slots [("files_total", some (.nat d.filesTotal)),
      ("files_scanned", some (.nat d.filesScanned)), ("files_skipped", some (.nat d.filesSkipped)),
      ("files_without_patch", countValue d.filesWithoutPatch),
      ("changed_methods_total", some (.nat d.changedMethodsTotal)),
      ("resolved_methods", countValue d.resolvedMethods),
      ("unresolved_methods", countValue d.unresolvedMethods),
      ("inputs", some d.inputs.toJson)]) := by
    simp [Data.toJson, slots, optional_some, countToJson_eq]
  rw [hslots]
  apply faithful_slots
  · have htotal := (faithful_count h.filesTotal).decode_eq
    have hscanned := (faithful_count h.filesScanned).decode_eq
    have hskipped := (faithful_count h.filesSkipped).decode_eq
    have hwithout := withDefault?_countValue h.filesWithoutPatch
    have hchanged := (faithful_count h.changedMethodsTotal).decode_eq
    have hresolved := withDefault?_countValue h.resolvedMethods
    have hunresolved := withDefault?_countValue h.unresolvedMethods
    rw [Data.ofJson?, record?_slots rfl (by decide), Option.bind_eq_bind, Option.bind_some]
    -- kept closed, for the match below would otherwise be checked by counting up to the bound
    generalize Json.natural? countBound = count at *
    simp [htotal, hscanned, hskipped, hwithout, hchanged, hresolved, hunresolved,
      hinputs.decode_eq]
  · have hcount : ∀ n < countBound, ∀ x ∈ some (Json.nat n), Json.Exact x :=
      fun n hn => exact_some (faithful_count hn).exact
    simp only [List.forall_mem_cons]
    exact ⟨hcount _ h.filesTotal, hcount _ h.filesScanned, hcount _ h.filesSkipped,
      exact_countValue h.filesWithoutPatch, hcount _ h.changedMethodsTotal,
      exact_countValue h.resolvedMethods, exact_countValue h.unresolvedMethods,
      exact_some hinputs.exact, List.forall_mem_nil _⟩

/-! ## Whole reports -/

/-- Whether every number has the size that it has in a report, and no diagnostic has other data than
those that tracing leaves. -/
structure InRange (r : Report) : Prop where
  durationMs : ∀ n ∈ r.run.durationMs, n < numberBound
  diagnostics : ∀ d ∈ r.diagnostics, d.HasPlainData
  data : r.data.InRange

/-- A report in range is read back from its value. -/
theorem faithful {r : Report} (h : r.InRange) : Faithful ofJson? r.toJson r := by
  have hrun := Run.faithful h.durationMs
  have hmethods := Json.faithful_list r.changedMethods fun s _ => Json.faithful_string s
  have htraceability : ∀ entries ∈ r.traceability,
      Faithful (Json.list? TraceEntry.ofJson?) (.array (entries.map (·.toJson))) entries :=
    fun entries _ => Json.faithful_list entries fun e _ => e.faithful
  have hdiagnostics := Json.faithful_list r.diagnostics
    fun d hd => Diagnostic.faithful (h.diagnostics d hd)
  have hdata := Data.faithful h.data
  have hslots : r.toJson = .object (slots [("schema", some (.string r.schema)),
      ("tool", some r.tool.toJson), ("run", some r.run.toJson),
      ("changed_methods", some (.array (r.changedMethods.map .string))),
      ("traceability", r.traceability.map fun es => .array (es.map (·.toJson))),
      ("diagnostics", some (.array (r.diagnostics.map (·.toJson)))),
      ("data", some r.data.toJson)]) := by
    simp [toJson, slots, optional_some, textsToJson]
  rw [hslots]
  apply faithful_slots
  · rw [ofJson?, record?_slots rfl (by decide)]
    simp [Json.string?, r.tool.faithful.decode_eq, hrun.decode_eq, hmethods.decode_eq,
      Json.optional?_map htraceability, hdiagnostics.decode_eq, hdata.decode_eq]
  · simp only [List.forall_mem_cons]
    exact ⟨exact_some (.string _), exact_some r.tool.faithful.exact, exact_some hrun.exact,
      exact_some hmethods.exact, Json.exact_map htraceability, exact_some hdiagnostics.exact,
      exact_some hdata.exact, List.forall_mem_nil _⟩

/-- A report in range is read back from its text. -/
theorem read?_of_inRange {r : Report} (h : r.InRange) : read? r.json = some r := by
  have hparse : Json.parse? r.json.toList = some r.toJson := Json.parse?_pretty (faithful h).exact
  rw [read?, hparse, Option.bind_eq_bind, Option.bind_some, (faithful h).decode_eq]

/-- **The JSON form of a report loses nothing**: the report is read back from it, whatever it leaves
out, and the report that has been read is rendered as before. Reports with and without traceability
are told apart even if no method has been traced. -/
theorem read?_json {r : Report} (h : r.InRange) :
    read? r.json = some r ∧
    (∀ decoded, read? r.json = some decoded →
      decoded = r ∧ decoded.json = r.json ∧
      (∀ maxMethods, decoded.markdown maxMethods = r.markdown maxMethods) ∧
      decoded.text = r.text) ∧
    { r with traceability := none }.json ≠ { r with traceability := some [] }.json := by
  refine ⟨read?_of_inRange h, ?_, ?_⟩
  · intro decoded hdecoded
    have heq : decoded = r := Option.some.inj (hdecoded.symm.trans (read?_of_inRange h))
    subst heq
    exact ⟨rfl, rfl, fun _ => rfl, rfl⟩
  · -- both reports would be read back from the one text
    intro heq
    have hnone : InRange { r with traceability := none } := ⟨h.durationMs, h.diagnostics, h.data⟩
    have hempty : InRange { r with traceability := some [] } :=
      ⟨h.durationMs, h.diagnostics, h.data⟩
    have hread := read?_of_inRange hempty
    rw [← heq, read?_of_inRange hnone] at hread
    cases congrArg traceability (Option.some.inj hread)

/-- A report that leaves out some counts and fields, with texts that need escapes and the greatest
numbers that there are. -/
def sparseReport : Report where
  run := { startedAt := "\"\\\n\t\x00", durationMs := some 18446744073709551615 }
  changedMethods := ["ns::C<int>::f", "", "größe\x7f😀"]
  traceability := some [⟨"", []⟩, ⟨"f", ["t", "t"]⟩]
  diagnostics := [.unmappedMethod "f", .missingCoverageRow "g" "7\"",
    { severity := .info, code := "", message := "" }]
  data := {
    filesTotal := 4294967295
    unresolvedMethods := 2
    inputs := { source := "diff-file", changeNumber := some 0, tables := some ⟨"m", "", "c"⟩ } }

/-- Escapes, empty texts, the largest counts and a diagnostic of no kind: all read back. -/
theorem read?_json_sparseReport : sparseReport.InRange ∧
    (read? sparseReport.json = some sparseReport ∧
      (∀ decoded, read? sparseReport.json = some decoded →
        decoded = sparseReport ∧ decoded.json = sparseReport.json ∧
        (∀ maxMethods, decoded.markdown maxMethods = sparseReport.markdown maxMethods) ∧
        decoded.text = sparseReport.text) ∧
      { sparseReport with traceability := none }.json ≠
        { sparseReport with traceability := some [] }.json) := by
  have hduration : ∀ n ∈ sparseReport.run.durationMs, n < numberBound := by
    rintro n ⟨⟩
    decide
  have hdiagnostics : ∀ d ∈ sparseReport.diagnostics, d.HasPlainData := by
    simp only [sparseReport, List.forall_mem_cons]
    exact ⟨nofun, fun _ hx => ⟨_, (Option.some.inj hx).symm⟩, nofun, nofun⟩
  have hnumber : ∀ n ∈ sparseReport.data.inputs.changeNumber, n < numberBound := by
    rintro n ⟨⟩
    decide
  have hdata : sparseReport.data.InRange :=
    ⟨by decide, by decide, by decide, by decide, by decide, by decide, by decide, hnumber⟩
  have h : sparseReport.InRange := ⟨hduration, hdiagnostics, hdata⟩
  exact ⟨h, read?_json h⟩

end Report

end TestImpact
