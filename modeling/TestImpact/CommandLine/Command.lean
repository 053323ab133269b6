import TestImpact.CommandLine.Words
import TestImpact.Decimal.Natural
import TestImpact.Patch.Span

/-!
# Commands

The program checks a pull request, detects the methods that a diff touches, or explains the code of
a diagnostic.
-/

namespace TestImpact.CommandLine

/-- The renderings of a report. -/
inductive OutputFormat
  | text
  | markdown
  | json
  deriving DecidableEq, Repr

/-- The rendering that has a name. -/
def OutputFormat.ofName? : String → Option OutputFormat
  | "text" => some .text
  | "markdown" => some .markdown
  | "json" => some .json
  | _ => none

/-- The way to follow spans that has a name. -/
def spanModeOfName? (name : String) : Option Patch.SpanMode :=
  [Patch.SpanMode.braces, Patch.SpanMode.indentation].find? (·.name = name)

/-- The options of every analysis. -/
structure AnalysisOptions where
  methods : Option String := none
  tests : Option String := none
  coverage : Option String := none
  /-- What stands between test ids. -/
  delimiter : Option String := none
  /-- The path of the settings file. -/
  settings : Option String := none
  spanMode : Option Patch.SpanMode := none
  extension : Option String := none
  countSignatureEdits : Bool := false
  format : OutputFormat := .markdown
  /-- Where the output is written in place of standard output. -/
  out : Option String := none
  /-- Where the markdown rendering is written besides. -/
  markdownCopy : Option String := none
  maxMethods : Option Nat := none
  deriving DecidableEq, Repr

/-- What the program is asked to do. -/
inductive Command
  | check (number : Nat) (token repository apiUrl listing : Option String)
      (options : AnalysisOptions)
  | detect (diff : Option String) (options : AnalysisOptions)
  | explain (code : String)
  deriving DecidableEq, Repr

/-- The options that every command knows. The one for more talk has no effect on the output. -/
def commonRules : List OptionRule :=
  [⟨"verbose", some 'v', .flag⟩, ⟨"help", some 'h', .request .help⟩]

/-- The options that may stand before the command. -/
def programRules : List OptionRule := commonRules ++ [⟨"version", some 'V', .request .version⟩]

/-- The options of every analysis. -/
def analysisRules : List OptionRule :=
  commonRules ++ [⟨"config", some 'c', .value⟩, ⟨"count-signature-edits", none, .flag⟩] ++
    ["methods", "tests", "coverage", "delimiter", "span", "extension", "format", "out", "md",
      "max-methods"].map fun name => ⟨name, none, .value⟩

/-- The options of the command that checks a pull request. -/
def checkRules : List OptionRule :=
  analysisRules ++ ["token", "repo", "api-url", "files-json"].map fun name => ⟨name, none, .value⟩

/-- The options of the command that reads a diff. -/
def detectRules : List OptionRule := analysisRules ++ [⟨"diff-file", none, .value⟩]

/-- A number that 64 bits hold. -/
def number? (written : String) : Option Nat := Decimal.natural? Decimal.bound64 written.toList

/-- The options of an analysis among those read. -/
def Reading.analysisOptions (r : Reading) : Except Stop AnalysisOptions := do
  return {
    methods := ← r.path? "methods"
    tests := ← r.path? "tests"
    coverage := ← r.path? "coverage"
    delimiter := r.value? "delimiter"
    settings := ← r.path? "config"
    spanMode := ← r.decoded? "span" spanModeOfName?
    extension := r.value? "extension"
    countSignatureEdits := r.flag "count-signature-edits"
    format := (← r.decoded? "format" OutputFormat.ofName?).getD .markdown
    out := ← r.path? "out"
    markdownCopy := ← r.path? "md"
    maxMethods := ← r.decoded? "max-methods" number? }

namespace Command

/-- Read the words behind the name of a command. -/
def ofWords (name : String) (words : List String) : Except Stop Command :=
  match name with
  | "check" => do
    let r ← Reading.ofWords checkRules words
    let number ← r.word? "number" number?
    let listing ← r.path? "files-json"
    let options ← r.analysisOptions
    r.answer
    return .check (← required "number" number) (r.value? "token") (r.value? "repo")
      (r.value? "api-url") listing options
  | "detect" => do
    let r ← Reading.ofWords detectRules words
    r.noWords
    let options ← r.analysisOptions
    r.answer
    return .detect (r.value? "diff-file") options
  | "explain" => do
    let r ← Reading.ofWords commonRules words
    let code ← r.word? "code" some
    r.answer
    return .explain (← required "code" code)
  | "help" =>
    match words with
    | [] => .error (.request .help)
    | name :: rest =>
      if name ∉ ["check", "detect", "explain", "help"] then
        .error (.usage (.unknownCommand name))
      else
        match rest with
        | [] => .error (.request .help)
        | word :: _ => .error (.usage (.unknownCommand word))
  | _ => .error (.usage (.unknownCommand name))

/-- Read a command line. -/
def parse (words : List String) : Except Stop Command := do
  let (name, words) ← cutCommand programRules {} words
  ofWords name words

end Command

end TestImpact.CommandLine
