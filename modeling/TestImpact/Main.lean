import Std.Time.DateTime.Timestamp
import TestImpact.CommandLine.Run

/-!
# The program

The surroundings that a computer offers to a run, and the entry of the program. The hosting service
is out of reach of this program, so that each request ends without an answer.
-/

namespace TestImpact

/-- The cause of a failed operation. -/
def Files.FileError.ofError : IO.Error → Files.FileError
  | .noFileOrDirectory .. => .notFound
  | .alreadyExists .. => .exists
  | .inappropriateType .. => .notDirectory
  | e => .other (toString e)

/-- The result of an operation on files. -/
def Files.tryFile (x : IO α) : IO (Except Files.FileError α) :=
  try .ok <$> x catch e => return .error (.ofError e)

/-- The text that some bytes are. -/
def Files.textOfBytes (bytes : ByteArray) : Except Files.FileError String :=
  match String.fromUTF8? bytes with
  | some text => .ok text
  | none => .error .notText

instance : Files.FileAccess IO where
  readText path := do
    match ← Files.tryFile (IO.FS.readBinFile path) with
    | .ok bytes => return Files.textOfBytes bytes
    | .error e => return .error e
  writeText path text := Files.tryFile (IO.FS.writeFile path text)
  makeDirectories path := Files.tryFile (IO.FS.createDirAll path)

instance : CommandLine.Console IO where
  environment name := IO.getEnv name
  isTerminal := do (← IO.getStdin).isTty
  input := do
    match ← Files.tryFile do (← IO.getStdin).readBinToEnd with
    | .ok bytes => return Files.textOfBytes bytes
    | .error e => return .error e
  directory := do return (← IO.currentDir).toString
  now := do return ⟨(← Std.Time.Timestamp.now).toMillisecondsSinceUnixEpoch.val⟩
  print := IO.print
  complain := IO.eprint

instance : Hosting.Service IO where
  request _ _ := return .error "the hosting service is out of reach"

end TestImpact

/-- Run the program. -/
def main (words : List String) : IO UInt32 := TestImpact.CommandLine.run words
