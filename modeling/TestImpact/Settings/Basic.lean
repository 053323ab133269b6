import TestImpact.Files.Access
import TestImpact.Files.Path
import TestImpact.Glob.Pattern
import TestImpact.Patch.Span
import TestImpact.Pattern.Parser
import TestImpact.Text.Blank

/-!
# Settings

What a settings file may say, section by section, and the checks that its values have to pass.
Everything may be left out.
-/

namespace TestImpact

/-- Why a value is refused. -/
inductive SettingFault
  | emptyExtension
  | badPattern (cause : PatternError)
  | emptyDelimiter
  | badSeparator (given : String)
  | badPageSize (given : Nat)
  /-- The delimiter of the command line is empty. -/
  | emptyOverride
  /-- Some of the three tables are given, but not all. -/
  | missingTables
  deriving DecidableEq, Repr

/-- The fault in words. -/
def SettingFault.message : SettingFault → String
  | .emptyExtension => "detector.extension must not be empty"
  | .badPattern cause => "detector.signature_pattern: " ++ cause.message
  | .emptyDelimiter => "tables.delimiter must not be empty"
  | .badSeparator given => "field_separator must be a single character, got '" ++ given ++ "'"
  | .badPageSize given => "github.per_page must be between 1 and 100, got " ++ toString given
  | .emptyOverride => "test id delimiter must not be empty"
  | .missingTables => "methods, tests and coverage tables must be given together"

/-- Why there are no settings. -/
inductive SettingsError
  | unreadable (cause : Files.FileError)
  | malformed
  | invalid (fault : SettingFault)
  deriving DecidableEq, Repr

/-- The cause in words. -/
def SettingsError.message : SettingsError → String
  | .unreadable cause => "Failed to read config file: " ++ cause.message
  | .malformed => "Failed to parse config file: not a table of settings"
  | .invalid fault => "Invalid config value: " ++ fault.message

namespace Settings

/-- The section on the detection of methods. -/
structure DetectorSection where
  extension : Option String := none
  sourceRoots : Option (List String) := none
  spanMode : Option Patch.SpanMode := none
  countSignatureEdits : Option Bool := none
  signaturePattern : Option String := none
  deriving DecidableEq, Repr

/-- The section on the reference tables. -/
structure TableSection where
  methods : Option String := none
  tests : Option String := none
  coverage : Option String := none
  delimiter : Option String := none
  /-- The separator of the columns, a character or a name of the tab. -/
  separator : Option String := none
  deriving DecidableEq, Repr

/-- The section on the hosting service. -/
structure HostingSection where
  apiUrl : Option String := none
  perPage : Option Nat := none
  deriving DecidableEq, Repr

end Settings

/-- The settings of a file. -/
structure Settings where
  detector : Settings.DetectorSection := {}
  tables : Settings.TableSection := {}
  paths : Glob.Filter := {}
  hosting : Settings.HostingSection := {}
  deriving DecidableEq, Repr

namespace Settings

/-- The character that separates columns, written as itself or, if it is the tab, by a name. -/
def separator? (written : String) : Except SettingFault Char :=
  if written = "tab" ∨ written = "\\t" then .ok '\t'
  else
    match written.toList with
    | [c] => if c = '"' ∨ c = '\n' then .error (.badSeparator written) else .ok c
    | _ => .error (.badSeparator written)

/-- Refuse a value that is there and does not pass a test. -/
def refuseIf (bad : α → Bool) (fault : α → SettingFault) : Option α → Except SettingFault Unit
  | some x => if bad x then .error (fault x) else .ok ()
  | none => .ok ()

/-- Refuse what is not a pattern. -/
def checkPattern (pattern : String) : Except SettingFault Unit :=
  match Expression.parse pattern with
  | .ok _ => .ok ()
  | .error cause => .error (.badPattern cause)

/-- Check the values in their order. -/
def check (s : Settings) : Except SettingFault Unit := do
  refuseIf (fun e => (Text.trim e.toList).isEmpty) (fun _ => .emptyExtension) s.detector.extension
  s.detector.signaturePattern.forM checkPattern
  refuseIf (·.isEmpty) (fun _ => .emptyDelimiter) s.tables.delimiter
  s.tables.separator.forM fun written => do
    let _ ← separator? written
  refuseIf (fun n => n < 1 || 100 < n) .badPageSize s.hosting.perPage

/-- The settings with the paths of the tables taken relative to a directory. -/
def rebase (directory : String) (s : Settings) : Settings :=
  let move := fun path : Option String => path.map (Files.Path.join directory)
  { s with tables := { s.tables with
      methods := move s.tables.methods
      tests := move s.tables.tests
      coverage := move s.tables.coverage } }

end Settings

end TestImpact
