import TestImpact.Decimal.Natural
import TestImpact.Text.Blank
import TestImpact.Text.Lines

/-!
# Lines of a diff

A diff of many files is a sequence of sections, one per file. The lines before the hunks of a
section tell the paths of the file and what has been done to it.
-/

namespace TestImpact.Diff

/-- A path of a diff in the form that paths have in the repository: trimmed, with slashes, without
the `a/` or `b/` that tells the side, and without a step `./`. -/
def normalizePath (path : List Char) : List Char :=
  let path := (Text.trim path).map fun c => if c = '\\' then '/' else c
  let path := match path with
    | 'b' :: '/' :: rest => rest
    | 'a' :: '/' :: rest => rest
    | path => path
  match path with
  | '.' :: '/' :: rest => rest
  | path => path

/-- The path of a file header, none for a file that does not exist on its side. -/
def headerPath? (text : List Char) : Option String :=
  let path := Text.trim text
  if String.ofList path = "/dev/null" then none else some (String.ofList (normalizePath path))

/-- Whether a line that begins with `@@` tells where the hunk begins in the new file: the first word
after the first one that begins with `+` has a number of 32 bits before its comma. -/
def isHunkHeader (line : List Char) : Bool :=
  let words := (Text.words Text.isBlank line).drop 1
  match words.findSome? (List.isPrefixOf? ['+']) with
  | none => false
  | some range => (Decimal.natural? Decimal.bound32 (range.takeWhile (· ≠ ','))).isSome

/-- What a line says in a diff. -/
inductive Line
  /-- The first line of a section, with the path of the new file if it has one. -/
  | sectionStart (path : Option String)
  /-- The old file, which is absent if there was none. -/
  | oldFile (path : Option String)
  /-- The new file, which is absent if there is none. -/
  | newFile (path : Option String)
  | renamedTo (path : String)
  | newFileMode
  | deletedFileMode
  | binary
  /-- The header of a hunk, which may be malformed. -/
  | hunkHeader (valid : Bool)
  /-- A line of a hunk, or one that says nothing. -/
  | plain
  deriving DecidableEq, Repr

namespace Line

/-- Whether a line begins with a fixed text. -/
def startsWith (start : String) (line : List Char) : Bool := start.toList.isPrefixOf line

/-- What follows a fixed text at the start of a line. -/
def after? (start : String) (line : List Char) : Option (List Char) :=
  start.toList.isPrefixOf? line

/-- Read a line. -/
def read (line : List Char) : Line :=
  match after? "diff --git " line with
  | some rest => .sectionStart <|
      (Text.words Text.isBlank rest)[1]?.map fun p => String.ofList (normalizePath p)
  | none =>
  match after? "--- " line with
  | some rest => .oldFile (headerPath? rest)
  | none =>
  match after? "+++ " line with
  | some rest => .newFile (headerPath? rest)
  | none =>
  match after? "rename to " line with
  | some rest => .renamedTo (String.ofList (normalizePath rest))
  | none =>
  if startsWith "new file mode" line then .newFileMode
  else if startsWith "deleted file mode" line then .deletedFileMode
  else if startsWith "Binary files " line || startsWith "GIT binary patch" line then .binary
  else if startsWith "@@" line then .hunkHeader (isHunkHeader line)
  else .plain

end Line

end TestImpact.Diff
