import TestImpact.Report.Basic

/-!
# Renderings of reports

A report is rendered as markdown, for a comment on a pull request, and as plain text, for
a terminal.
-/

namespace TestImpact.Report

/-- How many methods the markdown rendering lists if nothing else is asked for. -/
def defaultMaxMethods : Nat := 50

/-- Some texts with a separator between them. -/
def commaSeparated (texts : List String) : String := ", ".intercalate texts

/-- A text in backticks. -/
def code (s : String) : String := "\x60" ++ s ++ "\x60"

/-- The tests of a method in a cell of the markdown table. -/
def testsCell (tests : List String) : String :=
  if tests.isEmpty then "_none_" else commaSeparated (tests.map code)

/-- The row of a method in the markdown table. -/
def tableRow (e : TraceEntry) : String :=
  "| " ++ code e.method ++ " | " ++ testsCell e.tests ++ " |\n"

/-- The changed methods in markdown, `maxMethods` of them at most. -/
def markdownMethods (methods : List String) (maxMethods : Nat) : String :=
  if methods.isEmpty then "✅ No changed methods found.\n"
  else
    let listed := (methods.take maxMethods).map fun m => "🔹 " ++ code m ++ "\n"
    let note :=
      if maxMethods < methods.length then
        "\n*Showing " ++ toString maxMethods ++ " of " ++ toString methods.length ++
          " changed methods*\n"
      else ""
    String.join listed ++ note

/-- The covering tests in markdown, if there are any methods to list. -/
def markdownTests (traceability : Option (List TraceEntry)) : String :=
  let entries := traceability.getD []
  if entries.isEmpty then ""
  else
    "\n### 🧪 Covering Tests\n\n| Method | Tests |\n|--------|-------|\n" ++
      String.join (entries.map tableRow)

/-- The diagnostics in markdown, if there are any. -/
def markdownWarnings (diagnostics : List Diagnostic) : String :=
  if diagnostics.isEmpty then ""
  else
    "\n### ⚠️ Warnings\n\n" ++ String.join (diagnostics.map fun d => "- " ++ d.message ++ "\n")

/-- The report in markdown. -/
def markdown (r : Report) (maxMethods : Nat) : String :=
  "### 🔍 Changed Methods in PR:\n" ++ markdownMethods r.changedMethods maxMethods ++
    markdownTests r.traceability ++ markdownWarnings r.diagnostics

/-- A line that is indented by some blanks. -/
def indentedLine (width : Nat) (s : String) : String := "".pushn ' ' width ++ s ++ "\n"

/-- The changed methods in plain text. -/
def textMethods (methods : List String) : String :=
  if methods.isEmpty then "No changed methods found.\n"
  else
    "Changed methods (" ++ toString methods.length ++ "):\n" ++
      String.join (methods.map (indentedLine 2))

/-- A method with its tests in plain text. -/
def textEntry (e : TraceEntry) : String :=
  indentedLine 2 e.method ++
    (if e.tests.isEmpty then indentedLine 4 "(no tests)"
    else String.join (e.tests.map (indentedLine 4)))

/-- The covering tests in plain text, if tests have been looked for. -/
def textTests (traceability : Option (List TraceEntry)) : String :=
  match traceability with
  | none => ""
  | some entries =>
    "\nCovering tests:\n" ++
      (if entries.isEmpty then indentedLine 2 "(none)" else String.join (entries.map textEntry))

/-- How plain text calls a severity. -/
def severityLabel : Severity → String
  | .info => "info"
  | .warn => "warning"
  | .error => "error"

/-- A diagnostic in plain text. -/
def textDiagnostic (d : Diagnostic) : String :=
  severityLabel d.severity ++ ": " ++ d.message ++ " [" ++ d.code ++ "]\n"

/-- The diagnostics in plain text, if there are any. -/
def textDiagnostics (diagnostics : List Diagnostic) : String :=
  if diagnostics.isEmpty then "" else "\n" ++ String.join (diagnostics.map textDiagnostic)

/-- The report in plain text. -/
def text (r : Report) : String :=
  textMethods r.changedMethods ++ textTests r.traceability ++ textDiagnostics r.diagnostics

end TestImpact.Report
