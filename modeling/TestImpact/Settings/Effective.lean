import TestImpact.Analysis
import TestImpact.Hosting.Client
import TestImpact.Settings.Basic
import TestImpact.Table.Parser

/-!
# Effective settings

What holds in the end: a value of the command line comes before one of the settings file, and that
before the usual one.
-/

namespace TestImpact

/-- Values of the command line. -/
structure Overrides where
  extension : Option String := none
  spanMode : Option Patch.SpanMode := none
  countSignatureEdits : Option Bool := none
  methods : Option String := none
  tests : Option String := none
  coverage : Option String := none
  delimiter : Option String := none
  apiUrl : Option String := none
  deriving DecidableEq, Repr

/-- A value for every setting that needs one. -/
structure EffectiveSettings where
  detector : Patch.DetectorOptions := {}
  signaturePattern : Option String := none
  methods : Option String := none
  tests : Option String := none
  coverage : Option String := none
  format : Table.Format := {}
  filter : Glob.Filter := {}
  apiUrl : String := "https://api.github.com"
  perPage : Nat := 100
  deriving DecidableEq, Repr

namespace EffectiveSettings

/-- What holds after a settings file. -/
def ofSettings (s : Settings) : Except SettingFault EffectiveSettings := do
  let usual : EffectiveSettings := {}
  let separator ← match s.tables.separator with
    | some written => Settings.separator? written
    | none => pure usual.format.separator
  return {
    detector := {
      extension := s.detector.extension.getD usual.detector.extension
      sourceRoots := s.detector.sourceRoots.getD usual.detector.sourceRoots
      spanMode := s.detector.spanMode.getD usual.detector.spanMode
      countSignatureEdits :=
        s.detector.countSignatureEdits.getD usual.detector.countSignatureEdits }
    signaturePattern := s.detector.signaturePattern
    methods := s.tables.methods
    tests := s.tables.tests
    coverage := s.tables.coverage
    format := ⟨separator, s.tables.delimiter.getD usual.format.delimiter⟩
    filter := s.paths
    apiUrl := s.hosting.apiUrl.getD usual.apiUrl
    perPage := s.hosting.perPage.getD usual.perPage }

/-- What holds after the command line, whose delimiter may not be empty. -/
def override (e : EffectiveSettings) (o : Overrides) : Except SettingFault EffectiveSettings :=
  if o.delimiter = some "" then .error .emptyOverride
  else .ok { e with
    detector := { e.detector with
      extension := o.extension.getD e.detector.extension
      spanMode := o.spanMode.getD e.detector.spanMode
      countSignatureEdits := o.countSignatureEdits.getD e.detector.countSignatureEdits }
    methods := o.methods.or e.methods
    tests := o.tests.or e.tests
    coverage := o.coverage.or e.coverage
    format := { e.format with delimiter := o.delimiter.getD e.format.delimiter }
    apiUrl := o.apiUrl.getD e.apiUrl }

/-- What holds after a settings file, if there is one, and the command line. -/
def resolve (settings : Option Settings) (o : Overrides) :
    Except SettingFault EffectiveSettings := do
  let e ← match settings with
    | some s => ofSettings s
    | none => pure {}
  e.override o

/-- The paths of the three tables, absent if none of them is given. They are given together. -/
def tablePaths (e : EffectiveSettings) : Except SettingFault (Option Table.Paths) :=
  match e.methods, e.tests, e.coverage with
  | none, none, none => .ok none
  | some methods, some tests, some coverage => .ok (some { methods, tests, coverage })
  | _, _, _ => .error .missingTables

end EffectiveSettings

/-- Settings that do not fit together make an analysis fail. -/
def SettingsError.toAnalysisError (e : SettingsError) : AnalysisError := .invalidSettings e.message

end TestImpact
