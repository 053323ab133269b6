import TestImpact.Digest.Sha256
import TestImpact.Json.Value

/-!
# Diagnostics

A diagnostic tells of something that kept a changed method from being traced to its tests. Every
kind of diagnostic has a code, and the registry explains the codes. The fingerprint of a diagnostic
is a digest of the code and the names that it is about.
-/

namespace TestImpact

/-- How grave a diagnostic is. -/
inductive Severity
  | info
  | warn
  | error
  deriving DecidableEq, Repr

/-- The name of a severity in reports. -/
def Severity.name : Severity → String
  | .info => "info"
  | .warn => "warn"
  | .error => "error"

/-- The severity of a name. -/
def Severity.ofName? : String → Option Severity
  | "info" => some .info
  | "warn" => some .warn
  | "error" => some .error
  | _ => none

theorem Severity.ofName?_name (s : Severity) : ofName? s.name = some s := by cases s <;> rfl

/-- What can be said about all diagnostics of one kind. -/
structure CodeInfo where
  code : String
  name : String
  short : String
  full : String
  remediation : String
  deriving DecidableEq, Repr

namespace CodeInfo

/-- A changed method has no row in the method table. -/
def unmappedMethod : CodeInfo where
  code := "methodtrace.trace.unmapped_method"
  name := "UnmappedMethod"
  short := "Changed method not in method table"
  full := "A changed method has no row in the method table, so no tests can be traced to it."
  remediation :=
    "Regenerate the method table, or accept the gap for newly introduced methods."

/-- The id of a changed method has no row in the coverage table. -/
def missingCoverageRow : CodeInfo where
  code := "methodtrace.trace.missing_coverage_row"
  name := "MissingCoverageRow"
  short := "Method id not in coverage table"
  full := "A changed method resolved to an id, but the coverage table has no row for that id."
  remediation :=
    "Record coverage for the method, or accept that it has no covering tests yet."

/-- A reference table could not be read. -/
def invalidTable : CodeInfo where
  code := "methodtrace.input.invalid_table"
  name := "InvalidTable"
  short := "Invalid reference table"
  full := "A reference table could not be parsed as header-less delimited rows."
  remediation :=
    "Check the column count, separator and duplicate ids in the named table file."

/-- The changed files could not be listed. -/
def requestFailure : CodeInfo where
  code := "methodtrace.upstream.request_failed"
  name := "UpstreamFailure"
  short := "Patch source request failed"
  full := "The hosting service returned a non-success status while listing changed files."
  remediation :=
    "Verify the token, the repository identifier and the change-request number."

/-- Anything else that went wrong. -/
def runtimeError : CodeInfo where
  code := "tool.runtime_error"
  name := "RuntimeError"
  short := "Tool runtime error"
  full := "methodtrace failed due to a runtime or internal error."
  remediation := "Re-run with --verbose and file a bug if reproducible."

/-- All codes. -/
def registry : List CodeInfo :=
  [unmappedMethod, missingCoverageRow, invalidTable, requestFailure, runtimeError]

/-- The entry of a code. -/
def find? (code : String) : Option CodeInfo := registry.find? (·.code = code)

end CodeInfo

/-- The digest of some parts with bars between them. -/
def fingerprint (parts : List String) : String :=
  Digest.hex (Digest.sha256 ("|".intercalate parts).toUTF8.toList)

/-- A condition met while methods are traced to tests. -/
structure Diagnostic where
  severity : Severity
  code : String
  message : String
  /-- The qualified name of the method that the diagnostic is about. -/
  method : Option String := none
  data : Option Json := none
  fingerprint : Option String := none
  deriving Repr

namespace Diagnostic

/-- The method has no row in the method table. -/
def unmappedMethod (method : String) : Diagnostic where
  severity := .warn
  code := CodeInfo.unmappedMethod.code
  message := "Method '" ++ method ++ "' not found in method table."
  method := some method
  fingerprint := some (TestImpact.fingerprint [CodeInfo.unmappedMethod.code, method])

/-- The id of the method has no row in the coverage table. -/
def missingCoverageRow (method methodId : String) : Diagnostic where
  severity := .warn
  code := CodeInfo.missingCoverageRow.code
  message := "No coverage row for method '" ++ method ++ "' (id " ++ methodId ++ ")."
  method := some method
  data := some (.object [("method_id", .string methodId)])
  fingerprint :=
    some (TestImpact.fingerprint [CodeInfo.missingCoverageRow.code, method, methodId])

/-- The JSON form, in which what is absent is left out. -/
def toJson (d : Diagnostic) : Json :=
  .object ([("severity", .string d.severity.name), ("code", .string d.code),
      ("message", .string d.message)] ++
    Json.optional "method" (d.method.map .string) ++ Json.optional "data" d.data ++
    Json.optional "fingerprint" (d.fingerprint.map .string))

end Diagnostic

end TestImpact
