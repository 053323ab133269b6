import TestImpact.CommandLine.Run
import TestImpact.Files.Tree

/-!
# Sessions

A session is a place to run the program as a value: its files, its input, and what has been written.
-/

namespace TestImpact.CommandLine

/-- The surroundings of a run. -/
structure Session where
  files : Files.Tree := {}
  /-- The standard input, absent if its bytes are no text. -/
  input : Option String := some ""
  /-- Whether the standard input is a terminal. -/
  terminal : Bool := false
  /-- The environment variables with their values. -/
  environment : List (String × String) := []
  /-- The moment, and those that the clock shows after it. -/
  now : Moment := ⟨0⟩
  later : List Moment := []
  /-- How the hosting service answers a token and an address. -/
  service : String → String → Except String Hosting.Answer := fun _ _ => .error "no connection"
  /-- What has been written to standard output. -/
  output : String := ""
  /-- The errors that have been told on standard error. What is logged there besides, such as a
  warning of a file without a patch, is not followed. -/
  complaints : String := ""

/-- Runs in a session. -/
abbrev SessionM := StateM Session

namespace Session

/-- The session after the clock has been read. -/
def tick (s : Session) : Session :=
  match s.later with
  | [] => s
  | next :: later => { s with now := next, later := later }

end Session

instance : Files.FileAccess SessionM where
  readText path := do return (← get).files.readText path
  writeText path text := do
    let s ← get
    match s.files.writeText path text with
    | .ok files => set { s with files }; return .ok ()
    | .error e => return .error e
  makeDirectories path := do
    let s ← get
    let (files, result) := s.files.makeDirectories (Files.Path.ancestors path)
    set { s with files }
    return result

instance : Console SessionM where
  environment name := do return (← get).environment.lookup name
  isTerminal := do return (← get).terminal
  input := do
    match (← get).input with
    | some text => return .ok text
    | none => return .error .notText
  directory := do return "/" ++ "/".intercalate (← get).files.current
  now := do
    let s ← get
    set s.tick
    return s.now
  print text := modify fun s => { s with output := s.output ++ text }
  complain text := modify fun s => { s with complaints := s.complaints ++ text }

instance : Hosting.Service SessionM where
  request token url := do return (← get).service token url

end TestImpact.CommandLine
