/-!
# Access to files

What the program asks of the place where it runs: text files to read and to write, directories to
make. The same code runs on the files of a computer and on a tree of files that is a plain value.
-/

namespace TestImpact.Files

/-- Why a file cannot be read or written. -/
inductive FileError
  | notFound
  | exists
  | notDirectory
  | isDirectory
  /-- The bytes of the file are no text. -/
  | notText
  | other (text : String)
  deriving DecidableEq, Repr

/-- The cause in words. -/
def FileError.message : FileError → String
  | .notFound => "No such file or directory (os error 2)"
  | .exists => "File exists (os error 17)"
  | .notDirectory => "Not a directory (os error 20)"
  | .isDirectory => "Is a directory (os error 21)"
  | .notText => "stream did not contain valid UTF-8"
  | .other text => text

/-- The operations on files. -/
class FileAccess (m : Type → Type) where
  /-- The text of the file at a path. -/
  readText : String → m (Except FileError String)
  /-- Make a text the content of the file at a path, which is made if it does not exist. -/
  writeText : String → String → m (Except FileError Unit)
  /-- Make the directory at a path and all directories above it that do not exist. -/
  makeDirectories : String → m (Except FileError Unit)

end TestImpact.Files
