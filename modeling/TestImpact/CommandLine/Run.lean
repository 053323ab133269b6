import TestImpact.CommandLine.Command
import TestImpact.Diff.Split
import TestImpact.Settings.Effective
import TestImpact.Settings.Parser

/-!
# Running a command

An analysis is run in two steps. The first one reads whatever it needs and ends with the outputs or
with an error; the second one writes the outputs. So nothing is written by a run that fails in the
first step. Errors are told on standard error; the log that is kept there is left out.
-/

namespace TestImpact.CommandLine

/-- The surroundings of a run, apart from files and the hosting service. -/
class Console (m : Type → Type) where
  /-- The value of an environment variable. -/
  environment : String → m (Option String)
  /-- Whether standard input is a terminal, which is not read. -/
  isTerminal : m Bool
  /-- The whole standard input. -/
  input : m (Except Files.FileError String)
  /-- The path of the current directory from the root. -/
  directory : m String
  now : m Moment
  /-- Write to standard output. -/
  print : String → m Unit
  /-- Tell an error on standard error. -/
  complain : String → m Unit

/-- Why a run fails. -/
inductive RunError
  | missingToken
  | missingRepository
  | missingDiff
  | unreadable (path : String) (cause : Files.FileError)
  | unwritable (path : String) (cause : Files.FileError)
  /-- The directory of an output cannot be made. -/
  | noDirectory (path : String) (cause : Files.FileError)
  | settings (cause : SettingsError)
  | hosting (cause : Hosting.HostingError)
  | diff (cause : Diff.DiffError)
  | analysis (cause : AnalysisError)
  deriving DecidableEq, Repr

/-- The cause in words. -/
def RunError.message : RunError → String
  | .missingToken => "Must provide --token (or GITHUB_TOKEN) unless --files-json is given"
  | .missingRepository => "Must provide --repo (or GITHUB_REPOSITORY) unless --files-json is given"
  | .missingDiff => "Must provide --diff-file or pipe a diff on stdin"
  | .unreadable path cause => "Failed to read file '" ++ path ++ "': " ++ cause.message
  | .unwritable path cause => "Failed to write file '" ++ path ++ "': " ++ cause.message
  | .noDirectory path cause => "Failed to create directory '" ++ path ++ "': " ++ cause.message
  | .settings cause => "Failed to load config: " ++ cause.message
  | .hosting cause => cause.message
  | .diff cause => cause.message
  | .analysis cause => cause.message

variable {m : Type → Type} [Monad m]

/-- Go on with a result, or fail with an error as the cause. -/
def attempt (result : Except ε α) (cause : ε → RunError) : ExceptT RunError m α :=
  match result with
  | .ok x => pure x
  | .error e => throw (cause e)

/-! ### What is asked for -/

/-- The values of the command line that come before settings. -/
def AnalysisOptions.overrides (o : AnalysisOptions) (apiUrl : Option String) : Overrides where
  extension := o.extension
  spanMode := o.spanMode
  countSignatureEdits := if o.countSignatureEdits then some true else none
  methods := o.methods
  tests := o.tests
  coverage := o.coverage
  delimiter := o.delimiter
  apiUrl := apiUrl

/-- The settings of the file that is named, or of the nearest one. -/
def loadSettings [Files.FileAccess m] [Console m] (o : AnalysisOptions) :
    ExceptT RunError m (Option Settings) := do
  match o.settings with
  | some path => do
    let loaded ← ExceptT.lift (Settings.load path)
    some <$> attempt loaded .settings
  | none => do
    let found ← ExceptT.lift (Console.directory >>= Settings.discover)
    return found.map (·.2)

/-- The settings that hold for a run. -/
def effectiveSettings [Files.FileAccess m] [Console m] (o : AnalysisOptions)
    (apiUrl : Option String) : ExceptT RunError m EffectiveSettings := do
  let settings ← loadSettings o
  attempt (EffectiveSettings.resolve settings (o.overrides apiUrl)) (.settings ∘ .invalid)

/-- The request that settings and options make. -/
def requestOf (e : EffectiveSettings) (tables : Option Table.Paths) (o : AnalysisOptions) :
    AnalysisRequest where
  detector := e.detector
  signaturePattern := e.signaturePattern
  filter := e.filter
  tableInputs := tables.map fun t => ⟨t.methods, t.tests, t.coverage⟩
  maxMethods := o.maxMethods.getD Report.defaultMaxMethods

/-- Settings that hold for a run, and the request that follows from them. -/
structure Plan where
  settings : EffectiveSettings
  tables : Option Table.Paths
  request : AnalysisRequest

/-- The plan of a run. -/
def planOf [Files.FileAccess m] [Console m] (o : AnalysisOptions) (apiUrl : Option String) :
    ExceptT RunError m Plan := do
  let settings ← effectiveSettings o apiUrl
  let tables ← attempt settings.tablePaths (.settings ∘ .invalid)
  return { settings, tables, request := requestOf settings tables o }

/-! ### Analysing -/

/-- Read the tables of a plan, if it has any. -/
def Plan.loadTables [Files.FileAccess m] (plan : Plan) :
    m (Option (Except String ReferenceTables)) := do
  match plan.tables with
  | none => return none
  | some paths => do
    let loaded ← Table.load paths plan.settings.format
    return some (loaded.mapError (·.message))

/-- Analyse the changed files that a source yields. -/
def Plan.analyze [Files.FileAccess m] [Console m] (plan : Plan) (source : m ChangeSource) :
    ExceptT RunError m Analysis := do
  let started ← ExceptT.lift Console.now
  let source ← ExceptT.lift source
  let tables ← ExceptT.lift plan.loadTables
  let ended ← ExceptT.lift Console.now
  attempt (TestImpact.analyze plan.request source tables started ended) .analysis

/-- A listing in a file as a source. -/
def listingSource [Files.FileAccess m] (path : String) : m ChangeSource := do
  let files ← Hosting.loadListing path
  return { name := Hosting.listingName, files := files.mapError (·.message) }

/-- The hosting service as a source. -/
def serviceSource [Hosting.Service m] (client : Hosting.Client) (number : Nat) :
    m ChangeSource := do
  let files ← Hosting.listFiles client number
  return { name := Hosting.sourceName, files := files.mapError (·.message) }

/-- The value of an option or else of an environment variable. -/
def orVariable [Console m] (given : Option String) (name : String) : m (Option String) :=
  match given with
  | some value => return some value
  | none => Console.environment name

/-- Check a pull request. -/
def check [Files.FileAccess m] [Console m] [Hosting.Service m] (number : Nat)
    (token repository apiUrl listing : Option String) (o : AnalysisOptions) :
    ExceptT RunError m Analysis := do
  let token ← ExceptT.lift (orVariable token "GITHUB_TOKEN")
  let repository ← ExceptT.lift (orVariable repository "GITHUB_REPOSITORY")
  let plan ← planOf o apiUrl
  let request := { plan.request with changeNumber := number, repository := repository }
  match listing with
  | some path =>
    let plan := { plan with request := { request with sourcePath := some path } }
    plan.analyze (listingSource path)
  | none => do
    let plan := { plan with request := request }
    match token.filter fun t => !(Text.trim t.toList).isEmpty, repository with
    | none, _ => throw .missingToken
    | _, none => throw .missingRepository
    | some token, some repository => do
      let client : Hosting.Client :=
        { token, repository, apiUrl := plan.settings.apiUrl, perPage := plan.settings.perPage }
      let client ← attempt client.check .hosting
      plan.analyze (serviceSource client number)

/-- What the path of a diff stands for: standard input if it is a dash or missing. -/
def diffPath? (path : Option String) : Option String := path.filter (· ≠ "-")

/-- The text of a diff. Standard input may be blank only if it is asked for by a dash, and it may
not be a terminal. -/
def readDiff [Files.FileAccess m] [Console m] (path : Option String) :
    ExceptT RunError m String := do
  match diffPath? path with
  | some path => do
    let text ← ExceptT.lift (Files.FileAccess.readText path)
    attempt text (.unreadable path)
  | none => do
    if ← ExceptT.lift Console.isTerminal then throw .missingDiff
    let input ← ExceptT.lift Console.input
    let text ← attempt input (.unreadable "stdin")
    if path.isNone && (Text.trim text.toList).isEmpty then throw .missingDiff else return text

/-- Detect the methods that a diff touches. -/
def detect [Files.FileAccess m] [Console m] (path : Option String) (o : AnalysisOptions) :
    ExceptT RunError m Analysis := do
  let plan ← planOf o none
  let text ← readDiff path
  let files ← attempt (Diff.split text.toList) .diff
  let plan := { plan with request := { plan.request with sourcePath := diffPath? path } }
  plan.analyze (pure { name := Diff.sourceName, files := .ok files })

/-! ### Writing -/

/-- A text and the place that it is written to. -/
inductive Output
  | standard (text : String)
  | file (path text : String)
  deriving DecidableEq, Repr

/-- The report in a format. -/
def rendering (a : Analysis) : OutputFormat → String
  | .text => a.text
  | .markdown => a.markdown
  | .json => a.report.json

/-- The outputs of an analysis. -/
def AnalysisOptions.outputs (o : AnalysisOptions) (a : Analysis) : List Output :=
  let rendered := rendering a o.format
  let main := match o.out with
    | some path => Output.file path rendered
    | none => Output.standard rendered
  main :: o.markdownCopy.toList.map fun path => Output.file path a.markdown

/-- Write a file, in a directory that is made if it does not exist. -/
def writeFile [Files.FileAccess m] (path text : String) : ExceptT RunError m Unit := do
  match (Files.Path.parent? path).filter (!·.isEmpty) with
  | some directory => do
    let made ← ExceptT.lift (Files.FileAccess.makeDirectories directory)
    attempt made (.noDirectory directory)
  | none => pure ()
  let written ← ExceptT.lift (Files.FileAccess.writeText path text)
  attempt written (.unwritable path)

/-- Write an output. -/
def Output.write [Files.FileAccess m] [Console m] : Output → ExceptT RunError m Unit
  | .standard text => ExceptT.lift (Console.print text)
  | .file path text => writeFile path text

/-! ### Commands -/

/-- The exit codes. -/
def success : UInt32 := 0
def failure : UInt32 := 1
def misuse : UInt32 := 2

/-- What is told of the code of a diagnostic. -/
def explanation (info : CodeInfo) : String :=
  "Code: " ++ info.code ++ "\nName: " ++ info.name ++ "\nMeaning: " ++ info.full ++
    "\nRemediation: " ++ info.remediation ++ "\n"

/-- Explain the code of a diagnostic. -/
def explain [Console m] (code : String) : m UInt32 := do
  match CodeInfo.find? code with
  | some info => do
    Console.print (explanation info)
    return success
  | none => do
    Console.complain ("Unknown code: " ++ code ++ "\n")
    return failure

/-- Run an analysis and write its outputs. -/
def perform [Files.FileAccess m] [Console m] (analysis : ExceptT RunError m Analysis)
    (o : AnalysisOptions) : ExceptT RunError m Unit := do
  let a ← analysis
  (o.outputs a).forM Output.write

/-- The exit code of an analysis that is run. An error is told. -/
def runAnalysis [Files.FileAccess m] [Console m] (analysis : ExceptT RunError m Analysis)
    (o : AnalysisOptions) : m UInt32 := do
  match ← (perform analysis o).run with
  | .ok () => return success
  | .error e => do
    Console.complain ("error: " ++ e.message ++ "\n")
    return failure

/-- Run a command. -/
def Command.run [Files.FileAccess m] [Console m] [Hosting.Service m] : Command → m UInt32
  | .check number token repository apiUrl listing o =>
    runAnalysis (CommandLine.check number token repository apiUrl listing o) o
  | .detect path o => runAnalysis (CommandLine.detect path o) o
  | .explain code => CommandLine.explain code

/-- The name and the version of the program. -/
def versionText : String :=
  let tool : Report.Tool := {}
  tool.name ++ " " ++ tool.version ++ "\n"

/-- How the program is used. -/
def helpText : String :=
  "Usage: methodtrace [-v] check <number> [--token <token>] [--repo <owner/name>]\n" ++
  "                              [--api-url <url>] [--files-json <path>] [options]\n" ++
  "       methodtrace [-v] detect [--diff-file <path>] [options]\n" ++
  "       methodtrace explain <code>\n\n" ++
  "Options: --methods <path> --tests <path> --coverage <path> --delimiter <text>\n" ++
  "         -c, --config <path> --span <braces|indent> --extension <text>\n" ++
  "         --count-signature-edits --format <text|markdown|json> --out <path>\n" ++
  "         --md <path> --max-methods <number>\n"

/-- Run the program with the words of its command line. -/
def run [Files.FileAccess m] [Console m] [Hosting.Service m] (words : List String) : m UInt32 := do
  match Command.parse words with
  | .ok command => command.run
  | .error (.usage e) => do
    Console.complain ("error: " ++ e.message ++ "\n\n" ++ helpText)
    return misuse
  | .error (.request .help) => do
    Console.print helpText
    return success
  | .error (.request .version) => do
    Console.print versionText
    return success

end TestImpact.CommandLine
