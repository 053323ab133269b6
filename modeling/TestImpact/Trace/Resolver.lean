import TestImpact.Diagnostic
import TestImpact.QualifiedName
import TestImpact.Table.Basic

/-!
# Tracing methods to tests

A changed method leads by one of its lookup keys to an id, the id to the ids of the covering tests,
and these to the names of the tests. A method that does not get that far leaves a diagnostic.
-/

namespace TestImpact

/-- The tests that cover a changed method. -/
structure TraceEntry where
  method : String
  tests : List String
  deriving DecidableEq, Repr

/-- What has become of some changed methods. -/
structure Resolution where
  entries : List TraceEntry := []
  diagnostics : List Diagnostic := []
  deriving Repr

namespace Resolution

/-- The tests of a method, if it was traced. -/
def testsFor? (r : Resolution) (method : String) : Option (List String) :=
  (r.entries.find? (·.method = method)).map (·.tests)

end Resolution

/-- The id of a method: that of the first lookup key with a row. -/
def methodId? (methods : List NamedRow) (name : String) : Option String :=
  (QualifiedName.lookupKeys name).findSome? (NamedRow.idOf? methods)

/-- What becomes of one changed method. The tests come in the order of the test table. -/
def ReferenceTables.trace (tables : ReferenceTables) (method : String) :
    Except Diagnostic TraceEntry :=
  match methodId? tables.methods method with
  | none => .error (.unmappedMethod method)
  | some id =>
    match tables.coverage.row? id with
    | none => .error (.missingCoverageRow method id)
    | some row =>
      let wanted := row.ids tables.coverage.delimiter
      .ok ⟨method, (tables.tests.filter fun test => wanted.contains test.id).map (·.name)⟩

/-- The elements of a list without those that occur earlier in it. -/
def distinct [BEq α] (xs : List α) : List α :=
  (xs.foldl (fun kept x => if kept.contains x then kept else x :: kept) []).reverse

/-- What becomes of the changed methods, each of them once, in the order given. -/
def ReferenceTables.resolve (tables : ReferenceTables) (changed : List String) : Resolution :=
  let outcomes := (distinct changed).map tables.trace
  { entries := outcomes.filterMap Except.toOption
    diagnostics := outcomes.filterMap fun | .error d => some d | .ok _ => none }

end TestImpact
