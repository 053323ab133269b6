import TestImpact.Settings.Basic
import TestImpact.Toml.Decode
import TestImpact.Toml.Parser

/-!
# Settings files

Settings are read from a file, whose tables are found relative to its directory. If no file is
named, the nearest one that can be used is taken, from a directory or one above it.
-/

namespace TestImpact.Settings

/-- The way to follow spans that has a name. -/
def spanModeOfName? : String → Option Patch.SpanMode
  | "braces" => some .braces
  | "indent" => some .indentation
  | "indentation" => some .indentation
  | _ => none

def DetectorSection.ofToml? (x : Toml) : Option DetectorSection := do
  let names :=
    ["extension", "source_roots", "span", "count_signature_edits", "signature_pattern"]
  match ← Toml.section? names x with
  | [extension, roots, span, count, pattern] =>
    return {
      extension := ← Toml.optional? Toml.string? extension
      sourceRoots := ← Toml.optional? (Toml.list? Toml.string?) roots
      spanMode := ← Toml.optional? (fun x => x.choice?.bind spanModeOfName?) span
      countSignatureEdits := ← Toml.optional? Toml.boolean? count
      signaturePattern := ← Toml.optional? Toml.string? pattern }
  | _ => none

def TableSection.ofToml? (x : Toml) : Option TableSection := do
  match ← Toml.section? ["methods", "tests", "coverage", "delimiter", "field_separator"] x with
  | [methods, tests, coverage, delimiter, separator] =>
    return {
      methods := ← Toml.optional? Toml.string? methods
      tests := ← Toml.optional? Toml.string? tests
      coverage := ← Toml.optional? Toml.string? coverage
      delimiter := ← Toml.optional? Toml.string? delimiter
      separator := ← Toml.optional? Toml.string? separator }
  | _ => none

/-- The section on the paths that are looked at. -/
def pathsOfToml? (x : Toml) : Option Glob.Filter := do
  match ← Toml.section? ["exclude", "include"] x with
  | [excludes, includes] =>
    return {
      excludes := (← Toml.optional? (Toml.list? Toml.string?) excludes).getD []
      includes := (← Toml.optional? (Toml.list? Toml.string?) includes).getD [] }
  | _ => none

def HostingSection.ofToml? (x : Toml) : Option HostingSection := do
  match ← Toml.section? ["api_url", "per_page"] x with
  | [apiUrl, perPage] =>
    return {
      apiUrl := ← Toml.optional? Toml.string? apiUrl
      perPage := ← Toml.optional? (Toml.natural? Decimal.bound32) perPage }
  | _ => none

/-- Decode settings. -/
def ofToml? (x : Toml) : Option Settings := do
  match ← Toml.section? ["detector", "tables", "paths", "github"] x with
  | [detector, tables, paths, hosting] =>
    return {
      detector := (← Toml.optional? DetectorSection.ofToml? detector).getD {}
      tables := (← Toml.optional? TableSection.ofToml? tables).getD {}
      paths := (← Toml.optional? pathsOfToml? paths).getD {}
      hosting := (← Toml.optional? HostingSection.ofToml? hosting).getD {} }
  | _ => none

/-- Read settings and check them. -/
def parse (text : List Char) : Except SettingsError Settings :=
  match (Toml.parse? text).bind fun fields => ofToml? (.table fields) with
  | none => .error .malformed
  | some s =>
    match s.check with
    | .ok () => .ok s
    | .error fault => .error (.invalid fault)

/-- The settings of a file at a path, with the paths of the tables taken relative to its
directory. -/
def ofFile (path : String) (text : List Char) : Except SettingsError Settings :=
  (parse text).map fun s =>
    match Files.Path.parent? path with
    | some directory => s.rebase directory
    | none => s

/-- The settings of a file. -/
def load [Monad m] [Files.FileAccess m] (path : String) : m (Except SettingsError Settings) := do
  match ← Files.FileAccess.readText path with
  | .ok text => return ofFile path text.toList
  | .error cause => return .error (.unreadable cause)

/-- The name of settings files that are looked for. -/
def fileName : String := "methodtrace.toml"

/-- The first file in some directories that can be used, with its settings. -/
def discoverIn [Monad m] [Files.FileAccess m] : List String → m (Option (String × Settings))
  | [] => return none
  | directory :: rest => do
    let path := Files.Path.join directory fileName
    match ← load path with
    | .ok s => return some (path, s)
    | .error _ => discoverIn rest

/-- The nearest file that can be used, from a directory upwards, with its settings. -/
def discover [Monad m] [Files.FileAccess m] (start : String) : m (Option (String × Settings)) :=
  discoverIn (Files.Path.ancestors start)

end TestImpact.Settings
