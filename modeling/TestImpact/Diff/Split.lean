import TestImpact.Diff.Line
import TestImpact.FileChange
import TestImpact.Files.Access

/-!
# Splitting a diff into files

A diff is read line by line. The section of a file collects what its headers say and the lines of
its hunks, from the first header of a hunk on; the changed file follows from it when the next
section begins or the diff ends.
-/

namespace TestImpact.Diff

/-- Why a diff cannot be split. -/
inductive DiffError
  | malformedHunkHeader (line : String)
  | unreadable (path : String) (cause : Files.FileError)
  deriving DecidableEq, Repr

/-- The cause in words. -/
def DiffError.message : DiffError → String
  | .malformedHunkHeader line => "invalid diff format: malformed hunk header: '" ++ line ++ "'"
  | .unreadable path cause => "I/O error: " ++ path ++ ": " ++ cause.message

/-- What has been read of the section of a file. -/
structure Section where
  /-- The path of the new file. -/
  path : Option String := none
  oldPath : Option String := none
  renamedTo : Option String := none
  isNew : Bool := false
  isDeleted : Bool := false
  isBinary : Bool := false
  /-- Whether the last header was that of a hunk. -/
  inHunk : Bool := false
  /-- The lines of the hunks, latest first. -/
  hunkLines : List (List Char) := []
  deriving DecidableEq, Repr

/-- Some lines with line feeds between them. -/
def joinLines : List (List Char) → List Char
  | [] => []
  | [l] => l
  | l :: rest => l ++ '\n' :: joinLines rest

namespace Section

/-- What the headers say has been done to the file. -/
def status (s : Section) : String :=
  if s.isNew then "added"
  else if s.isDeleted then "removed"
  else if s.renamedTo.isSome then "renamed"
  else "modified"

/-- The patch of the file, unless it is binary or has no hunk. -/
def patch? (s : Section) : Option String :=
  if s.isBinary || s.hunkLines.isEmpty then none
  else some (String.ofList (joinLines s.hunkLines.reverse))

/-- The changed file, unless no header tells its path. -/
def finish? (s : Section) : Option FileChange :=
  (s.renamedTo.or (s.path.or s.oldPath)).map fun path =>
    { filename := path, patch := s.patch?, status := some s.status }

/-- Note the old file of a section. -/
def withOldFile (s : Section) : Option String → Section
  | none => { s with isNew := true }
  | some path => { s with oldPath := some path }

/-- Note the new file of a section. -/
def withNewFile (s : Section) : Option String → Section
  | none => { s with isDeleted := true, inHunk := false }
  | some path => { s with path := some path, inHunk := false }

/-- Add a line to the hunks. -/
def push (s : Section) (line : List Char) : Section := { s with hunkLines := line :: s.hunkLines }

/-- One more line of the section that does not begin a section of its own. -/
def step (s : Section) (line : List Char) : Line → Except DiffError Section
  | .newFile path => .ok (s.withNewFile path)
  | .renamedTo path => .ok { s with renamedTo := some path }
  | .newFileMode => .ok { s with isNew := true }
  | .deletedFileMode => .ok { s with isDeleted := true }
  | .binary => .ok { s with isBinary := true, inHunk := false }
  | .hunkHeader true => .ok (push { s with inHunk := true } line)
  | .hunkHeader false => .error (.malformedHunkHeader (String.ofList line))
  | _ => .ok (if s.inHunk then s.push line else s)

end Section

/-- The sections read: the files of those that have ended, latest first, and the one being read. -/
structure State where
  files : List FileChange := []
  current : Option Section := none
  deriving DecidableEq, Repr

namespace State

/-- End the current section and begin another one. -/
def begin (st : State) (next : Section) : State :=
  { files := ((st.current.bind (·.finish?)).toList) ++ st.files, current := some next }

/-- One more line. A line for the old file begins a section if none is open or a hunk has been read
before, for in a bare diff nothing else stands between two files. -/
def step (st : State) (line : List Char) : Except DiffError State :=
  match Line.read line, st.current with
  | .sectionStart path, _ => .ok (st.begin { path := path })
  | .oldFile path, some s =>
    if s.inHunk then .ok (st.begin (Section.withOldFile {} path))
    else .ok { st with current := some (s.withOldFile path) }
  | .oldFile path, none => .ok (st.begin (Section.withOldFile {} path))
  | _, none => .ok st
  | read, some s => do
    let s ← s.step line read
    pure { st with current := some s }

/-- The files of all sections in order. -/
def result (st : State) : List FileChange :=
  st.files.reverse ++ (st.current.bind (·.finish?)).toList

end State

/-- A text whose lines end with line feeds only. -/
def unifyLineEnds : List Char → List Char
  | [] => []
  | '\r' :: '\n' :: rest => '\n' :: unifyLineEnds rest
  | c :: rest => c :: unifyLineEnds rest

/-- The changed files of a diff. -/
def split (text : List Char) : Except DiffError (List FileChange) := do
  let st ← (Text.lines (unifyLineEnds text)).foldlM State.step {}
  pure st.result

/-- What reports call a diff as a source of changed files. -/
def sourceName : String := "diff-file"

/-- The changed files of a diff in a file. -/
def load [Monad m] [Files.FileAccess m] (path : String) :
    m (Except DiffError (List FileChange)) := do
  match ← Files.FileAccess.readText path with
  | .ok text => return split text.toList
  | .error cause => return .error (.unreadable path cause)

end TestImpact.Diff
