import TestImpact.Toml.Scalar
import TestImpact.Toml.Scope
import TestImpact.Toml.Text

/-!
# Reading settings files

A settings file is a sequence of lines that each hold a key with a value, the header of a table, or
nothing. Arrays may extend over many lines, tables within a value may not.
-/

namespace TestImpact.Toml

mutual

/-- Read a value, with at most `depth` levels of arrays and tables and `bound` steps down and
forward. -/
def readValue (depth bound : Nat) (s : List Char) : Option (Toml × List Char) :=
  match bound with
  | 0 => none
  | bound + 1 =>
    match s with
    | '"' :: '"' :: '"' :: rest => (readLines '"' rest).map fun (text, rest) => (.string text, rest)
    | '"' :: rest => (readLine '"' rest).map fun (text, rest) => (.string text, rest)
    | '\'' :: '\'' :: '\'' :: rest =>
      (readLines '\'' rest).map fun (text, rest) => (.string text, rest)
    | '\'' :: rest => (readLine '\'' rest).map fun (text, rest) => (.string text, rest)
    | '[' :: rest =>
      match depth with
      | 0 => none
      | depth + 1 => do
        let (items, rest) ← readItems depth bound rest
        some (.array items, rest)
    | '\x7B' :: rest =>
      match depth with
      | 0 => none
      | depth + 1 =>
        match skipSpaces rest with
        | '\x7D' :: rest => some (.table [], rest)
        | rest => do
          let (pairs, rest) ← readPairs depth bound rest
          some (← inlineTable? pairs, rest)
    | s => readScalar s

/-- Read the items of an array and its closing bracket. A comma may stand behind the last item. -/
def readItems (depth bound : Nat) (s : List Char) : Option (List Toml × List Char) :=
  match bound with
  | 0 => none
  | bound + 1 =>
    match skipLayout false s with
    | ']' :: rest => some ([], rest)
    | s => do
      let (v, rest) ← readValue depth bound s
      match skipLayout false rest with
      | ']' :: rest => some ([v], rest)
      | ',' :: rest => do
        let (vs, rest) ← readItems depth bound rest
        some (v :: vs, rest)
      | _ => none

/-- Read the keys and values of a table on one line, at least one of them, and its closing brace. -/
def readPairs (depth bound : Nat) (s : List Char) :
    Option (List (List String × Toml) × List Char) :=
  match bound with
  | 0 => none
  | bound + 1 => do
    let (key, rest) ← readKey maxDepth s
    match rest with
    | '=' :: rest => do
      let (v, rest) ← readValue depth bound (skipSpaces rest)
      match skipSpaces rest with
      | '\x7D' :: rest => some ([(key, v)], rest)
      | ',' :: rest => do
        let (pairs, rest) ← readPairs depth bound rest
        some ((key, v) :: pairs, rest)
      | _ => none
    | _ => none

end

/-- Read a line that holds a key with a value. -/
def readPair (s : List Char) : Option (Statement × List Char) := do
  let (key, rest) ← readKey maxDepth s
  match rest with
  | '=' :: rest => do
    let (v, rest) ← readValue maxDepth (2 * rest.length + 2) (skipSpaces rest)
    some (.pair key v, ← lineEnd? rest)
  | _ => none

/-- Read a line that holds a statement. -/
def readStatement : List Char → Option (Statement × List Char)
  | '[' :: '[' :: rest => do
    let (path, rest) ← readKey maxDepth rest
    match rest with
    | ']' :: ']' :: rest => some (.sharedHeader path, ← lineEnd? rest)
    | _ => none
  | '[' :: rest => do
    let (path, rest) ← readKey maxDepth rest
    match rest with
    | ']' :: rest => some (.header path, ← lineEnd? rest)
    | _ => none
  | s => readPair s

/-- Read the statements of a text, in at most `bound` steps. -/
def readStatements : Nat → List Char → Option (List Statement)
  | 0, _ => none
  | bound + 1, s =>
    match skipSpaces s with
    | [] => some []
    | s =>
      match lineEnd? s with
      | some rest => readStatements bound rest
      | none => do
        let (statement, rest) ← readStatement s
        (readStatements bound rest).map (statement :: ·)

/-- A text without a byte order mark at its start. -/
def dropMark : List Char → List Char
  | '\uFEFF' :: rest => rest
  | text => text

/-- The fields of a settings file. -/
def parse? (text : List Char) : Option (List (String × Toml)) := do
  Document.ofStatements? (← readStatements (text.length + 1) (dropMark text))

end TestImpact.Toml
