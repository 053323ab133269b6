import TestImpact.Text.Blank
import TestImpact.Text.Lines

/-!
# Reference tables

Three tables lead from methods to tests: the names of methods by id, the names of tests by id, and
for the id of a method the ids of the tests that cover it, delimited within one cell.
-/

namespace TestImpact

/-- A row of the method table or of the test table. -/
structure NamedRow where
  id : String
  name : String
  deriving DecidableEq, Repr

/-- A row of the coverage table. -/
structure CoverageRow where
  methodId : String
  /-- The ids of the covering tests, with the delimiter of the table between them. -/
  testIds : String
  deriving DecidableEq, Repr

/-- The coverage table. -/
structure Coverage where
  rows : List CoverageRow := []
  delimiter : String := "_"
  deriving DecidableEq, Repr

/-- The three tables. -/
structure ReferenceTables where
  methods : List NamedRow := []
  tests : List NamedRow := []
  coverage : Coverage := {}
  deriving DecidableEq, Repr

/-- The id of the first row of a name. -/
def NamedRow.idOf? (rows : List NamedRow) (name : String) : Option String :=
  (rows.find? (·.name = name)).map (·.id)

/-- The first row of a method. -/
def Coverage.row? (table : Coverage) (methodId : String) : Option CoverageRow :=
  table.rows.find? (·.methodId = methodId)

/-- The ids in a cell: its pieces around the delimiter, trimmed, without the empty ones. -/
def splitTestIds (delimiter cell : String) : List String :=
  let pieces := (Text.splitOn delimiter.toList cell.toList).map Text.trim
  (pieces.filter (! ·.isEmpty)).map String.ofList

/-- The ids in the cell of a row. -/
def CoverageRow.ids (row : CoverageRow) (delimiter : String) : List String :=
  splitTestIds delimiter row.testIds

end TestImpact
