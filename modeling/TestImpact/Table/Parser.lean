import TestImpact.Files.Access
import TestImpact.Table.Basic

/-!
# Written tables

A table is a text with a row per line. Blank lines and lines that begin with `#` are passed over.
The fields of a row stand between separators and are trimmed; a field in double quotes may hold the
separator, and a doubled quote in it stands for one quote.
-/

namespace TestImpact.Table

/-- How tables are written. -/
structure Format where
  separator : Char := ','
  /-- What stands between the test ids in a cell of the coverage table. -/
  delimiter : String := "_"
  deriving DecidableEq, Repr

/-- The fields of a row, `field` being what has been read of the current one, backwards, and
`quoted` telling whether a quote is open. A quote opens at the start of a field only. A quote that
is not closed leaves no fields. -/
def fieldsFrom (separator : Char) : Bool → List Char → List Char → Option (List (List Char))
  | true, _, [] => none
  | false, field, [] => some [Text.trim field.reverse]
  | true, field, '"' :: '"' :: rest => fieldsFrom separator true ('"' :: field) rest
  | true, field, c :: rest =>
    if c = '"' then fieldsFrom separator false field rest
    else fieldsFrom separator true (c :: field) rest
  | false, field, c :: rest =>
    if c = '"' && field.all Text.isBlank then fieldsFrom separator true [] rest
    else if c = separator then
      (fieldsFrom separator false [] rest).map (Text.trim field.reverse :: ·)
    else fieldsFrom separator false (c :: field) rest

/-- The fields of a row. -/
def splitFields? (separator : Char) (line : List Char) : Option (List (List Char)) :=
  fieldsFrom separator false [] line

/-- The three tables. -/
inductive Kind
  | method
  | test
  | coverage
  deriving DecidableEq, Repr

/-- The name of a table. -/
def Kind.name : Kind → String
  | .method => "method"
  | .test => "test"
  | .coverage => "coverage"

/-- Whether a row of the table may have a number of columns. -/
def Kind.allows (kind : Kind) (columns : Nat) : Bool :=
  match kind with
  | .coverage => columns = 2 || columns = 3
  | _ => columns = 2

/-- What is wrong with a row. -/
inductive RowFault
  | unterminatedQuote
  | columns (got : Nat)
  | emptyId
  deriving DecidableEq, Repr

/-- The fault in words, for a row of a table. -/
def RowFault.message (kind : Kind) : RowFault → String
  | .unterminatedQuote => "unterminated quoted field"
  | .columns got =>
    let wanted := match kind with
      | .coverage => "2 or 3 columns (method_id, [name,] test_ids)"
      | _ => "2 columns (id, name)"
    "expected " ++ wanted ++ ", got " ++ toString got
  | .emptyId => if kind = .coverage then "empty method id" else "empty id"

/-- Why a table cannot be read. Lines are counted from one. -/
inductive TableError
  | invalidRow (kind : Kind) (line : Nat) (fault : RowFault)
  | duplicateId (kind : Kind) (id : String) (line : Nat)
  | unreadable (path : String) (cause : Files.FileError)
  deriving DecidableEq, Repr

/-- The cause in words. -/
def TableError.message : TableError → String
  | .invalidRow kind line fault =>
    "invalid " ++ kind.name ++ " table at line " ++ toString line ++ ": " ++ fault.message kind
  | .duplicateId kind id line =>
    "duplicate id '" ++ id ++ "' in " ++ kind.name ++ " table at line " ++ toString line
  | .unreadable path cause => "I/O error reading " ++ path ++ ": " ++ cause.message

/-- A text without a byte order mark at its start. -/
def dropMark : List Char → List Char
  | '\uFEFF' :: rest => rest
  | text => text

/-- Whether a trimmed line holds a row. -/
def isData (line : List Char) : Bool := !line.isEmpty && line.head? != some '#'

/-- Some lines with their numbers, counted from the one given. -/
def numberFrom (n : Nat) : List (List Char) → List (Nat × List Char)
  | [] => []
  | line :: rest => (n, line) :: numberFrom (n + 1) rest

/-- The trimmed lines that hold rows, with their numbers. -/
def dataLines (text : List Char) : List (Nat × List Char) :=
  (numberFrom 1 ((Text.lines (dropMark text)).map Text.trim)).filter (isData ·.2)

/-- The fields of all rows. -/
def splitRows (kind : Kind) (separator : Char) (lines : List (Nat × List Char)) :
    Except TableError (List (Nat × List (List Char))) :=
  lines.mapM fun (n, line) =>
    match splitFields? separator line with
    | some fields => .ok (n, fields)
    | none => .error (.invalidRow kind n .unterminatedQuote)

/-- Check the rows in order, `seen` holding the ids of those before, and keep the first and the last
field of each. -/
def checkRows (kind : Kind) (seen : List String) :
    List (Nat × List (List Char)) → Except TableError (List (String × String))
  | [] => .ok []
  | (n, fields) :: rest =>
    if !kind.allows fields.length then .error (.invalidRow kind n (.columns fields.length))
    else
      let id := String.ofList (fields.head?.getD [])
      let last := String.ofList (fields.getLast?.getD [])
      if id.isEmpty then .error (.invalidRow kind n .emptyId)
      else if seen.contains id then .error (.duplicateId kind id n)
      else do
        let rows ← checkRows kind (id :: seen) rest
        pure ((id, last) :: rows)

/-- The first and the last field of every row of a table. A quote that is not closed anywhere is
reported before all other faults. -/
def parseRows (kind : Kind) (separator : Char) (text : List Char) :
    Except TableError (List (String × String)) := do
  checkRows kind [] (← splitRows kind separator (dataLines text))

/-- Read the method table or the test table. -/
def parseNamed (kind : Kind) (format : Format) (text : List Char) :
    Except TableError (List NamedRow) := do
  return (← parseRows kind format.separator text).map fun (id, name) => ⟨id, name⟩

/-- Read the coverage table. -/
def parseCoverage (format : Format) (text : List Char) : Except TableError Coverage := do
  let rows ← parseRows .coverage format.separator text
  return ⟨rows.map fun (id, tests) => ⟨id, tests⟩, format.delimiter⟩

/-- The files that hold the three tables. -/
structure Paths where
  methods : String
  tests : String
  coverage : String
  deriving DecidableEq, Repr

/-- Read the text of a table. -/
def readFile [Monad m] [Files.FileAccess m] (path : String) : ExceptT TableError m (List Char) := do
  match ← (Files.FileAccess.readText path : m _) with
  | .ok text => return text.toList
  | .error cause => throw (.unreadable path cause)

/-- Read the three tables from their files. -/
def load [Monad m] [Files.FileAccess m] (paths : Paths) (format : Format) :
    m (Except TableError ReferenceTables) := ExceptT.run do
  let methods ← ExceptT.mk (pure (parseNamed .method format (← readFile paths.methods)))
  let tests ← ExceptT.mk (pure (parseNamed .test format (← readFile paths.tests)))
  let coverage ← ExceptT.mk (pure (parseCoverage format (← readFile paths.coverage)))
  return { methods, tests, coverage }

end TestImpact.Table
