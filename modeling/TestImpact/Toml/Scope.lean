import TestImpact.Toml.Value

/-!
# Building tables

The tables of a settings file grow statement by statement. A table remembers what has brought it in,
for this decides which statements may still add to it: a header states a table once, a key with
points adds to tables that it or another such key has brought in, and neither adds to a table that
is written as a value.
-/

namespace TestImpact.Toml

/-- What has brought a table in. -/
inductive Origin
  /-- A header of its own; also the outermost table. -/
  | stated
  /-- The header of a table inside it. -/
  | implied
  /-- A key with points. -/
  | dotted
  deriving DecidableEq, Repr

/-- What stands under a name of a table that may still grow. -/
inductive Entry
  | value (v : Toml)
  | table (origin : Origin) (fields : List (String × Entry))
  /-- Tables with a common header, the latest one and those before it, latest first. -/
  | tables (latest : List (String × Entry)) (earlier : List (List (String × Entry)))

/-- The fields of a table that may still grow. -/
abbrev Scope := List (String × Entry)

/-- Put an entry under a name, in place of the one that has been there. -/
def Scope.put (fields : Scope) (name : String) (entry : Entry) : Scope :=
  if (fields.lookup name).isSome then
    fields.map fun (other, old) => (other, if other = name then entry else old)
  else fields ++ [(name, entry)]

/-- Change the table at a path below a table with an origin. Tables that are missing on the way are
made, and of tables with a common header the latest is taken. A key with points does not pass
through a table with a header of its own. -/
def Scope.changeAt (dotted : Bool) (change : Origin → Scope → Option Scope) :
    List String → Origin → Scope → Option Scope
  | [], origin, fields => change origin fields
  | name :: path, _, fields =>
    match fields.lookup name with
    | none => do
      let origin := if dotted then .dotted else .implied
      some (fields.put name (.table origin (← changeAt dotted change path origin [])))
    | some (.value _) => none
    | some (.table origin inner) =>
      if dotted && origin = .stated then none
      else do some (fields.put name (.table origin (← changeAt dotted change path origin inner)))
    | some (.tables latest earlier) => do
      some (fields.put name (.tables (← changeAt dotted change path .stated latest) earlier))

/-- Put a value under a name that is free. Keys with points and keys without do not add to the same
table. -/
def Scope.insert (isPlainKey : Bool) (name : String) (v : Toml) (origin : Origin) (fields : Scope) :
    Option Scope :=
  if decide (origin = .dotted) == isPlainKey || (fields.lookup name).isSome then none
  else some (fields.put name (.value v))

/-- Put a value under a key. -/
def Scope.define (key : List String) (v : Toml) (origin : Origin) (fields : Scope) : Option Scope :=
  match key.getLast? with
  | none => none
  | some name =>
    fields.changeAt true (insert (key.length = 1) name v) key.dropLast origin

/-- State a table by its header, which no header has done before. -/
def Scope.stateTable (name : String) (_ : Origin) (fields : Scope) : Option Scope :=
  match fields.lookup name with
  | none => some (fields.put name (.table .stated []))
  | some (.table .implied inner) => some (fields.put name (.table .stated inner))
  | some _ => none

/-- Add a table to those with a common header. -/
def Scope.addTable (name : String) (_ : Origin) (fields : Scope) : Option Scope :=
  match fields.lookup name with
  | none => some (fields.put name (.tables [] []))
  | some (.tables latest earlier) => some (fields.put name (.tables [] (latest :: earlier)))
  | some _ => none

mutual

/-- The value of an entry that does not grow any more. -/
def Entry.toValue : Entry → Toml
  | .value v => v
  | .table _ fields => .table (fieldValues fields)
  | .tables latest earlier => .array (tableValues [.table (fieldValues latest)] earlier)

/-- The values of the fields of a table. -/
def fieldValues : List (String × Entry) → List (String × Toml)
  | [] => []
  | (name, entry) :: rest => (name, entry.toValue) :: fieldValues rest

/-- The values of tables that are listed latest first, with those of later ones behind them. -/
def tableValues (later : List Toml) : List (List (String × Entry)) → List Toml
  | [] => later
  | fields :: rest => tableValues (.table (fieldValues fields) :: later) rest

end

/-- A statement of a settings file. -/
inductive Statement
  /-- A key with its value. -/
  | pair (key : List String) (v : Toml)
  /-- The header of a table. -/
  | header (path : List String)
  /-- The header that a table shares with others. -/
  | sharedHeader (path : List String)

/-- What the statements read so far have made, and the path of the table that keys add to. -/
structure Document where
  fields : Scope := []
  current : List String := []

namespace Document

/-- One more statement. -/
def step (d : Document) : Statement → Option Document
  | .pair key v => do
    let fields ← d.fields.changeAt false (Scope.define key v) d.current .stated
    some { d with fields }
  | .header path => do
    let name ← path.getLast?
    let fields ← d.fields.changeAt false (Scope.stateTable name) path.dropLast .stated
    some { fields, current := path }
  | .sharedHeader path => do
    let name ← path.getLast?
    let fields ← d.fields.changeAt false (Scope.addTable name) path.dropLast .stated
    some { fields, current := path }

/-- The fields that some statements make. -/
def ofStatements? (statements : List Statement) : Option (List (String × Toml)) :=
  (statements.foldlM step {}).map fun d => fieldValues d.fields

end Document

/-- The value of a table that is written on one line. -/
def inlineTable? (pairs : List (List String × Toml)) : Option Toml :=
  (pairs.foldlM (fun (fields : Scope) (key, v) => fields.define key v .stated) []).map fun fields =>
    .table (fieldValues fields)

end TestImpact.Toml
