import TestImpact.Diagnostic
import TestImpact.Json.Decode
import TestImpact.Json.Parser
import TestImpact.Trace.Resolver

/-!
# Reports

A report tells which methods a change touches, which tests cover them and what has been counted on
the way. Its JSON form leaves out what is absent and the counts that are zero where they may be.
-/

namespace TestImpact

namespace Report

/-- The program that has made a report. -/
structure Tool where
  name : String := "methodtrace"
  version : String := "0.1.0"
  deriving DecidableEq, Repr

/-- When the analysis was made. -/
structure Run where
  startedAt : String
  endedAt : Option String := none
  durationMs : Option Nat := none
  deriving DecidableEq, Repr

/-- The paths of the reference tables. -/
structure TableInputs where
  methods : String
  tests : String
  coverage : String
  deriving DecidableEq, Repr

/-- What the analysis was made from. -/
structure Inputs where
  /-- Where the changed files come from. -/
  source : String := "github"
  repository : Option String := none
  changeNumber : Option Nat := none
  path : Option String := none
  tables : Option TableInputs := none
  deriving DecidableEq, Repr

/-- What has been counted. -/
structure Data where
  filesTotal : Nat := 0
  filesScanned : Nat := 0
  filesSkipped : Nat := 0
  filesWithoutPatch : Nat := 0
  changedMethodsTotal : Nat := 0
  resolvedMethods : Nat := 0
  unresolvedMethods : Nat := 0
  inputs : Inputs := {}
  deriving DecidableEq, Repr

end Report

/-- The result of an analysis. -/
structure Report where
  schema : String := "methodtrace.report.v1"
  tool : Report.Tool := {}
  run : Report.Run
  changedMethods : List String := []
  /-- The tests of each method; absent if there were no tables. -/
  traceability : Option (List TraceEntry) := none
  diagnostics : List Diagnostic := []
  data : Report.Data := {}
  deriving Repr

namespace Report

/-- A report of nothing. -/
def empty (startedAt : String) : Report := { run := { startedAt := startedAt } }

/-! ### The JSON form -/

/-- A list of texts. -/
def textsToJson (texts : List String) : Json := .array (texts.map .string)

/-- A count that is left out if it is zero. -/
def countToJson (name : String) (n : Nat) : List (String × Json) :=
  if n = 0 then [] else [(name, .nat n)]

def Tool.toJson (t : Tool) : Json :=
  .object [("name", .string t.name), ("version", .string t.version)]

def Run.toJson (r : Run) : Json :=
  .object ([("started_at", .string r.startedAt)] ++
    Json.optional "ended_at" (r.endedAt.map .string) ++
    Json.optional "duration_ms" (r.durationMs.map .nat))

def TableInputs.toJson (t : TableInputs) : Json :=
  .object [("methods", .string t.methods), ("tests", .string t.tests),
    ("coverage", .string t.coverage)]

def Inputs.toJson (i : Inputs) : Json :=
  .object ([("source", .string i.source)] ++
    Json.optional "repository" (i.repository.map .string) ++
    Json.optional "change_number" (i.changeNumber.map .nat) ++
    Json.optional "path" (i.path.map .string) ++ Json.optional "tables" (i.tables.map (·.toJson)))

def Data.toJson (d : Data) : Json :=
  .object ([("files_total", .nat d.filesTotal), ("files_scanned", .nat d.filesScanned),
      ("files_skipped", .nat d.filesSkipped)] ++
    countToJson "files_without_patch" d.filesWithoutPatch ++
    [("changed_methods_total", .nat d.changedMethodsTotal)] ++
    countToJson "resolved_methods" d.resolvedMethods ++
    countToJson "unresolved_methods" d.unresolvedMethods ++ [("inputs", d.inputs.toJson)])

end Report

def TraceEntry.toJson (e : TraceEntry) : Json :=
  .object [("method", .string e.method), ("tests", Report.textsToJson e.tests)]

namespace Report

def toJson (r : Report) : Json :=
  .object ([("schema", .string r.schema), ("tool", r.tool.toJson), ("run", r.run.toJson),
      ("changed_methods", textsToJson r.changedMethods)] ++
    Json.optional "traceability" (r.traceability.map fun es => .array (es.map (·.toJson))) ++
    [("diagnostics", .array (r.diagnostics.map (·.toJson))), ("data", r.data.toJson)])

/-- The report as an indented JSON text. -/
def json (r : Report) : String := Json.pretty r.toJson

/-! ### Decoding -/

/-- The bound of counts. -/
def countBound : Nat := Decimal.bound32

/-- The bound of numbers. -/
def numberBound : Nat := Decimal.bound64

/-- How many levels of nesting the data of a diagnostic may have. -/
def dataDepth : Nat := 124

def Tool.ofJson? (x : Json) : Option Tool := do
  match ← Json.record? [⟨"name", false⟩, ⟨"version", false⟩] x with
  | [some name, some version] => return ⟨← Json.string? name, ← Json.string? version⟩
  | _ => none

def Run.ofJson? (x : Json) : Option Run := do
  match ← Json.record? [⟨"started_at", false⟩, ⟨"ended_at", false⟩, ⟨"duration_ms", false⟩] x with
  | [some started, ended, duration] =>
    return ⟨← Json.string? started, ← Json.optional? Json.string? ended,
      ← Json.optional? (Json.natural? numberBound) duration⟩
  | _ => none

def TableInputs.ofJson? (x : Json) : Option TableInputs := do
  match ← Json.record? [⟨"methods", false⟩, ⟨"tests", false⟩, ⟨"coverage", false⟩] x with
  | [some methods, some tests, some coverage] =>
    return ⟨← Json.string? methods, ← Json.string? tests, ← Json.string? coverage⟩
  | _ => none

def Inputs.ofJson? (x : Json) : Option Inputs := do
  let rules : List Json.FieldRule :=
    [⟨"source", false⟩, ⟨"repository", false⟩, ⟨"change_number", false⟩, ⟨"path", false⟩,
      ⟨"tables", false⟩]
  match ← Json.record? rules x with
  | [some source, repository, number, path, tables] =>
    return {
      source := ← Json.string? source
      repository := ← Json.optional? Json.string? repository
      changeNumber := ← Json.optional? (Json.natural? numberBound) number
      path := ← Json.optional? Json.string? path
      tables := ← Json.optional? TableInputs.ofJson? tables }
  | _ => none

def Data.ofJson? (x : Json) : Option Data := do
  let rules : List Json.FieldRule :=
    [⟨"files_total", false⟩, ⟨"files_scanned", false⟩, ⟨"files_skipped", false⟩,
      ⟨"files_without_patch", true⟩, ⟨"changed_methods_total", false⟩, ⟨"resolved_methods", true⟩,
      ⟨"unresolved_methods", true⟩, ⟨"inputs", false⟩]
  let count := Json.natural? countBound
  match ← Json.record? rules x with
  | [some total, some scanned, some skipped, without, some changed, resolved, unresolved,
      some inputs] =>
    return {
      filesTotal := ← count total
      filesScanned := ← count scanned
      filesSkipped := ← count skipped
      filesWithoutPatch := ← Json.withDefault? count 0 without
      changedMethodsTotal := ← count changed
      resolvedMethods := ← Json.withDefault? count 0 resolved
      unresolvedMethods := ← Json.withDefault? count 0 unresolved
      inputs := ← Inputs.ofJson? inputs }
  | _ => none

end Report

/-- Decode a severity, written as its name or as an object with the name as its only field. -/
def Severity.ofJson? : Json → Option Severity
  | .string name => ofName? name
  | .object [(name, .null)] => ofName? name
  | _ => none

def TraceEntry.ofJson? (x : Json) : Option TraceEntry := do
  match ← Json.record? [⟨"method", false⟩, ⟨"tests", false⟩] x with
  | [some method, some tests] =>
    return ⟨← Json.string? method, ← Json.list? Json.string? tests⟩
  | _ => none

def Diagnostic.ofJson? (x : Json) : Option Diagnostic := do
  let rules : List Json.FieldRule :=
    [⟨"severity", false⟩, ⟨"code", false⟩, ⟨"message", false⟩, ⟨"method", false⟩, ⟨"data", false⟩,
      ⟨"fingerprint", false⟩]
  match ← Json.record? rules x with
  | [some severity, some code, some message, method, data, fingerprint] =>
    return {
      severity := ← Severity.ofJson? severity
      code := ← Json.string? code
      message := ← Json.string? message
      method := ← Json.optional? Json.string? method
      data := ← Json.optional? (Json.data? Report.dataDepth) data
      fingerprint := ← Json.optional? Json.string? fingerprint }
  | _ => none

namespace Report

def ofJson? (x : Json) : Option Report := do
  let rules : List Json.FieldRule :=
    [⟨"schema", false⟩, ⟨"tool", false⟩, ⟨"run", false⟩, ⟨"changed_methods", false⟩,
      ⟨"traceability", false⟩, ⟨"diagnostics", false⟩, ⟨"data", false⟩]
  match ← Json.record? rules x with
  | [some schema, some tool, some run, some changed, traceability, some diagnostics, some data] =>
    return {
      schema := ← Json.string? schema
      tool := ← Tool.ofJson? tool
      run := ← Run.ofJson? run
      changedMethods := ← Json.list? Json.string? changed
      traceability := ← Json.optional? (Json.list? TraceEntry.ofJson?) traceability
      diagnostics := ← Json.list? Diagnostic.ofJson? diagnostics
      data := ← Data.ofJson? data }
  | _ => none

/-- Read a report from a JSON text. -/
def read? (text : String) : Option Report := do ofJson? (← Json.parse? text.toList)

end Report

end TestImpact
