/-!
# Words of a command line

The words behind the name of a command are options, values of options, and plain words. An option is
named by two dashes and its name, or by one dash and its letter; letters of several options may
share a dash. A value stands in the next word, behind an equals sign, or directly behind a letter.
All words behind a lone `--` are plain. A request for help is answered if the words before it are
right, whatever the words behind it are.
-/

namespace TestImpact.CommandLine

/-- What a command line may ask for in place of a command. -/
inductive Request
  | help
  | version
  deriving DecidableEq, Repr

/-- What an option does. -/
inductive OptionKind
  | flag
  | value
  | request (what : Request)
  deriving DecidableEq, Repr

/-- An option that a command knows. -/
structure OptionRule where
  name : String
  letter : Option Char := none
  kind : OptionKind := .value
  deriving DecidableEq, Repr

/-- What is wrong with a command line. -/
inductive UsageError
  | missingCommand
  | unknownCommand (word : String)
  | unknownOption (word : String)
  | unexpectedWord (word : String)
  | missingWord (what : String)
  | missingValue (option : String)
  | unexpectedValue (option : String)
  /-- An option is given twice. -/
  | repeated (option : String)
  | invalidValue (what value : String)
  deriving DecidableEq, Repr

/-- The fault in words. -/
def UsageError.message : UsageError → String
  | .missingCommand => "a command is required"
  | .unknownCommand word => "unrecognized command '" ++ word ++ "'"
  | .unknownOption word => "unexpected argument '" ++ word ++ "'"
  | .unexpectedWord word => "unexpected argument '" ++ word ++ "'"
  | .missingWord what => "'" ++ what ++ "' is required"
  | .missingValue option => "a value is required for '" ++ option ++ "'"
  | .unexpectedValue option => "no value is allowed for '" ++ option ++ "'"
  | .repeated option => "'" ++ option ++ "' cannot be used multiple times"
  | .invalidValue what value => "invalid value '" ++ value ++ "' for '" ++ what ++ "'"

/-- Why the reading of a command line ends without a command. -/
inductive Stop
  | usage (error : UsageError)
  | request (what : Request)
  deriving DecidableEq, Repr

/-- What the next word is taken for. -/
inductive Expectation
  | anything
  /-- The value of an option. -/
  | value (option : String)
  /-- A plain word, even if it begins with a dash. -/
  | plainWord
  deriving DecidableEq, Repr

/-- What has been read: options by their names with their values, which are empty for flags, and
plain words, all latest first. Nothing is read behind a request. -/
structure Reading where
  expected : Expectation := .anything
  options : List (String × String) := []
  words : List String := []
  request : Option Request := none
  deriving DecidableEq, Repr

/-- Whether a word is taken for options. A lone dash is not. -/
def isOptionWord (word : String) : Bool :=
  match word.toList with
  | '-' :: _ :: _ => true
  | _ => false

namespace Reading

/-- Note an option with its value. -/
def note (r : Reading) (option value : String) : Except Stop Reading :=
  if r.options.any (·.1 = option) then .error (.usage (.repeated option))
  else .ok { r with expected := .anything, options := (option, value) :: r.options }

/-- One more option, with its value if that stands in the same word. -/
def addOption (r : Reading) (rule : OptionRule) (value : Option String) : Except Stop Reading :=
  match rule.kind, value with
  | .value, some value => r.note rule.name value
  | .value, none => .ok { r with expected := .value rule.name }
  | _, some _ => .error (.usage (.unexpectedValue rule.name))
  | .flag, none => r.note rule.name ""
  | .request what, none => .ok { r with request := some what }

/-- One more word that names an option, of which two dashes have been read. -/
def addLong (rules : List OptionRule) (r : Reading) (s : List Char) : Except Stop Reading :=
  let name := String.ofList (s.takeWhile (· ≠ '='))
  let value := match s.dropWhile (· ≠ '=') with
    | [] => none
    | _ :: value => some (String.ofList value)
  match rules.find? (·.name = name) with
  | none => .error (.usage (.unknownOption ("--" ++ name)))
  | some rule => r.addOption rule value

/-- One more word with letters of options, of which the dash has been read. -/
def addLetters (rules : List OptionRule) (r : Reading) : List Char → Except Stop Reading
  | [] => .ok r
  | c :: rest =>
    match rules.find? (·.letter = some c) with
    | none => .error (.usage (.unknownOption ("-" ++ c.toString)))
    | some rule =>
      if rule.kind = .value then
        match rest with
        | [] => r.addOption rule none
        | '=' :: value => r.addOption rule (some (String.ofList value))
        | value => r.addOption rule (some (String.ofList value))
      else
        match r.addOption rule none with
        | .error stop => .error stop
        | .ok r => if r.request.isSome then .ok r else r.addLetters rules rest

/-- One more word. -/
def step (rules : List OptionRule) (r : Reading) (word : String) : Except Stop Reading :=
  if r.request.isSome then .ok r
  else
    match r.expected, word.toList with
    | .plainWord, _ => .ok { r with words := word :: r.words }
    | .value option, _ =>
      if isOptionWord word then .error (.usage (.missingValue option)) else r.note option word
    | .anything, ['-', '-'] => .ok { r with expected := .plainWord }
    | .anything, '-' :: '-' :: s => r.addLong rules s
    | .anything, '-' :: c :: s => r.addLetters rules (c :: s)
    | .anything, _ => .ok { r with words := word :: r.words }

/-- Read some words. The last option must have its value. -/
def ofWords (rules : List OptionRule) (words : List String) : Except Stop Reading := do
  let r ← words.foldlM (step rules) {}
  match r.expected with
  | .value option => .error (.usage (.missingValue option))
  | _ => return r

/-- Whether a flag is given. -/
def flag (r : Reading) (option : String) : Bool := r.options.any (·.1 = option)

/-- The value of an option. -/
def value? (r : Reading) (option : String) : Option String := r.options.lookup option

/-- Decode what is written for an option or a plain word, if anything is. -/
def decode (what : String) (read : String → Option α) : Option String → Except Stop (Option α)
  | none => .ok none
  | some written =>
    match read written with
    | some x => .ok (some x)
    | none => .error (.usage (.invalidValue what written))

/-- The value of an option, decoded. -/
def decoded? (r : Reading) (option : String) (read : String → Option α) :
    Except Stop (Option α) := decode option read (r.value? option)

/-- The path that an option gives; a path is not empty. -/
def path? (r : Reading) (option : String) : Except Stop (Option String) :=
  r.decoded? option fun path => if path.isEmpty then none else some path

/-- The only plain word, decoded, if there is one. -/
def word? (r : Reading) (what : String) (read : String → Option α) : Except Stop (Option α) :=
  match r.words.reverse with
  | _ :: word :: _ => .error (.usage (.unexpectedWord word))
  | words => decode what read words.head?

/-- Refuse plain words. -/
def noWords (r : Reading) : Except Stop Unit :=
  match r.words.reverse with
  | [] => .ok ()
  | word :: _ => .error (.usage (.unexpectedWord word))

/-- Answer a request, all that stands before it being right. -/
def answer (r : Reading) : Except Stop Unit :=
  match r.request with
  | some what => .error (.request what)
  | none => .ok ()

end Reading

/-- What a command cannot do without. -/
def required (what : String) : Option α → Except Stop α
  | some x => .ok x
  | none => .error (.usage (.missingWord what))

/-- Read the options that stand before the name of a command; the command, and the words behind
it. -/
def cutCommand (rules : List OptionRule) (r : Reading) :
    List String → Except Stop (String × List String)
  | [] => .error (.usage .missingCommand)
  | "--" :: _ => .error (.usage .missingCommand)
  | word :: rest =>
    if isOptionWord word then
      match r.step rules word with
      | .error stop => .error stop
      | .ok r =>
        match r.answer with
        | .error stop => .error stop
        | .ok () => cutCommand rules r rest
    else .ok (word, rest)

end TestImpact.CommandLine
