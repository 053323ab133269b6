import TestImpact.Calendar
import TestImpact.Glob.Pattern
import TestImpact.Patch.Detector
import TestImpact.Report.Render

/-!
# Analysing a change

An analysis looks for the touched methods of the changed files that are source files and pass
the path filter, traces them to tests if there are tables, and reports what it has found.
-/

namespace TestImpact

/-- What is asked for. -/
structure AnalysisRequest where
  changeNumber : Nat := 0
  repository : Option String := none
  /-- The path of the file that the changed files come from. -/
  sourcePath : Option String := none
  detector : Patch.DetectorOptions := {}
  /-- A written pattern for signatures in place of the usual one. -/
  signaturePattern : Option String := none
  filter : Glob.Filter := {}
  tableInputs : Option Report.TableInputs := none
  /-- How many methods the markdown rendering lists at most. -/
  maxMethods : Nat := Report.defaultMaxMethods
  deriving Repr

/-- Where the changed files come from, and the files or the reason why there are none. -/
structure ChangeSource where
  name : String := "github"
  files : Except String (List FileChange)

/-- Why an analysis fails. -/
inductive AnalysisError
  /-- There are no changed files. -/
  | fetch (reason : String)
  /-- There are no tables. -/
  | tables (reason : String)
  | invalidPattern (cause : PatternError)
  /-- The settings do not fit together. -/
  | invalidSettings (reason : String)
  deriving DecidableEq, Repr

/-- The cause in words. -/
def AnalysisError.message : AnalysisError → String
  | .fetch reason => "Failed to fetch file changes: " ++ reason
  | .tables reason => "Failed to load reference tables: " ++ reason
  | .invalidPattern cause => "Invalid configuration: signature pattern: " ++ cause.message
  | .invalidSettings reason => "Invalid configuration: " ++ reason

namespace AnalysisRequest

/-- The detector that is asked for. -/
def detectorOf (request : AnalysisRequest) : Except AnalysisError Patch.Detector :=
  match request.signaturePattern with
  | none => .ok { options := request.detector }
  | some pattern =>
    match Expression.parse pattern with
    | .ok e => .ok { options := request.detector, matcher := .ofExpression e }
    | .error cause => .error (.invalidPattern cause)

end AnalysisRequest

/-- What has been found in the changed files. -/
structure FileScan where
  methods : List String := []
  scanned : Nat := 0
  skipped : Nat := 0
  withoutPatch : Nat := 0
  deriving DecidableEq, Repr

namespace FileScan

/-- Look at one more file. -/
def step (d : Patch.Detector) (filter : Glob.Filter) (scan : FileScan) (file : FileChange) :
    FileScan :=
  if !d.handles file.filename || !filter.accepts file.filename then
    { scan with skipped := scan.skipped + 1 }
  else
    match file.patch with
    | none => { scan with withoutPatch := scan.withoutPatch + 1 }
    | some patch =>
      { scan with
        scanned := scan.scanned + 1
        methods := scan.methods ++ d.detect patch file.filename }

/-- Look at some files. -/
def ofFiles (d : Patch.Detector) (filter : Glob.Filter) (files : List FileChange) : FileScan :=
  files.foldl (step d filter) {}

end FileScan

/-- A number as a count of a report. Counts have 32 bits: what does not fit is cut off. -/
def Report.count (n : Nat) : Nat := n % countBound

/-- The report of an analysis. -/
def AnalysisRequest.report (request : AnalysisRequest) (source : String) (total : Nat)
    (scan : FileScan) (resolution : Option Resolution) (started ended : Moment) : Report :=
  let entries := resolution.map (·.entries)
  let diagnostics := (resolution.map (·.diagnostics)).getD []
  { run := {
      startedAt := started.write
      endedAt := some ended.write
      durationMs := some (started.elapsed ended) }
    changedMethods := scan.methods
    traceability := entries
    diagnostics := diagnostics
    data := {
      filesTotal := Report.count total
      filesScanned := Report.count scan.scanned
      filesSkipped := Report.count scan.skipped
      filesWithoutPatch := Report.count scan.withoutPatch
      changedMethodsTotal := Report.count scan.methods.length
      resolvedMethods := Report.count (entries.getD []).length
      unresolvedMethods := Report.count diagnostics.length
      inputs := {
        source := source
        repository := request.repository
        changeNumber := some request.changeNumber
        path := request.sourcePath
        tables := request.tableInputs } } }

/-- A report with its renderings. -/
structure Analysis where
  report : Report
  markdown : String
  text : String

/-- Analyse a change. The tables are absent if methods are not to be traced. -/
def analyze (request : AnalysisRequest) (source : ChangeSource)
    (tables : Option (Except String ReferenceTables)) (started ended : Moment) :
    Except AnalysisError Analysis := do
  let detector ← request.detectorOf
  let files ← source.files.mapError .fetch
  let scan := FileScan.ofFiles detector request.filter files
  let resolution ← match tables with
    | none => pure none
    | some tables => do
      let tables ← tables.mapError .tables
      pure (some (tables.resolve scan.methods))
  let report := request.report source.name files.length scan resolution started ended
  return ⟨report, report.markdown request.maxMethods, report.text⟩

end TestImpact
