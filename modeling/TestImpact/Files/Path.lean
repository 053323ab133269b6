import TestImpact.Text.Lines

/-!
# Paths

A path is a text whose components are separated by slashes. These functions work on the text alone:
the path of the directory above, and a path taken relative to a directory.
-/

namespace TestImpact.Files

namespace Path

/-- A path, backwards, without slashes and steps `/.` at its end. The slash of the root stays. -/
def trimEnd : List Char → List Char
  | ['/'] => ['/']
  | ['.', '/'] => ['/']
  | '/' :: rest => trimEnd rest
  | '.' :: '/' :: rest => trimEnd ('/' :: rest)
  | path => path

/-- Whether a path begins at the root. -/
def isAbsolute (path : String) : Bool := path.toList.head? = some '/'

/-- The path without its last component; the root and the empty path have none. -/
def parent? (path : String) : Option String :=
  match trimEnd path.toList.reverse with
  | [] => none
  | ['/'] => none
  | trimmed => some (String.ofList (trimEnd (trimmed.dropWhile (· ≠ '/'))).reverse)

/-- A path taken relative to a directory, unless it is absolute. -/
def join (directory path : String) : String :=
  if isAbsolute path || directory.isEmpty then path
  else if directory.toList.getLast? = some '/' then directory ++ path
  else directory ++ "/" ++ path

/-- A path and all the paths above it, from the innermost outwards, `bound` of them at most. -/
def ancestorsFrom (path : String) : Nat → List String
  | 0 => [path]
  | bound + 1 =>
    match parent? path with
    | none => [path]
    | some above => path :: ancestorsFrom above bound

/-- A path and all the paths above it, from the innermost outwards. -/
def ancestors (path : String) : List String := ancestorsFrom path path.length

/-- The components of a path, without empty ones and steps to the directory itself. -/
def components (path : String) : List String :=
  ((Text.splitOn ['/'] path.toList).map String.ofList).filter fun c => c ≠ "" ∧ c ≠ "."

end Path

end TestImpact.Files
