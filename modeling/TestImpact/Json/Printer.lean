import TestImpact.Json.Value
import TestImpact.Decimal.Shortest

/-!
# Writing JSON

A value is written compactly, on one line without blanks, or indented by two blanks per level with
one item or field per line. A string escapes quotes, backslashes and control characters only.
-/

namespace TestImpact.Json

/-- The decimal digits of a natural number. -/
def digits (n : Nat) : List Char := Nat.toDigits 10 n

/-- A character inside a string. -/
def escapeChar (c : Char) : List Char :=
  match c with
  | '"' => ['\\', '"']
  | '\\' => ['\\', '\\']
  | '\x08' => ['\\', 'b']
  | '\t' => ['\\', 't']
  | '\n' => ['\\', 'n']
  | '\x0C' => ['\\', 'f']
  | '\r' => ['\\', 'r']
  | c =>
    if c.toNat < 0x20 then
      ['\\', 'u', '0', '0', Nat.digitChar (c.toNat / 16), Nat.digitChar (c.toNat % 16)]
    else [c]

/-- A string in quotes. -/
def quote (s : List Char) : List Char := '"' :: s.flatMap escapeChar ++ ['"']

/-- A positive decimal: positional as long as the point lies within the first sixteen digits or at
most five places before them, with a signed exponent otherwise. -/
def writeScientific (d : Decimal.Scientific) : List Char :=
  let ds := digits d.digits
  let point : Int := ds.length + d.exponent
  if 0 ≤ d.exponent ∧ point ≤ 16 then ds ++ List.replicate d.exponent.toNat '0' ++ ['.', '0']
  else if 0 < point ∧ point ≤ 16 then ds.take point.toNat ++ '.' :: ds.drop point.toNat
  else if -5 < point ∧ point ≤ 0 then ['0', '.'] ++ List.replicate (-point).toNat '0' ++ ds
  else
    let exponent := point - 1
    let sign := if exponent < 0 then '-' else '+'
    let head := match ds with
      | [] => []
      | [x] => [x]
      | x :: rest => x :: '.' :: rest
    head ++ 'e' :: sign :: digits exponent.natAbs

/-- A number. A floating point number always shows that it is one. -/
def writeNumber : JsonNumber → List Char
  | .integer n => (if n < 0 then ['-'] else []) ++ digits n.natAbs
  | .float x =>
    let sign := if x.negative then ['-'] else []
    if x.mantissa = 0 then sign ++ ['0', '.', '0'] else sign ++ writeScientific x.shortest

/-- The texts of some items with a separator between them. -/
def join (separator : List Char) : List (List Char) → List Char
  | [] => []
  | [s] => s
  | s :: rest => s ++ separator ++ join separator rest

/-- A layout: what stands before the first item of an array or object, between two items, and after
the last one, at a level of nesting; and what stands between the name and the value of a field. -/
structure Layout where
  before : Nat → List Char
  between : Nat → List Char
  after : Nat → List Char
  colon : List Char

namespace Layout

/-- Everything on one line without blanks. -/
def compact : Layout := ⟨fun _ => [], fun _ => [','], fun _ => [], [':']⟩

/-- A new line at a level of nesting. -/
def newLine (level : Nat) : List Char := '\n' :: List.replicate (2 * level) ' '

/-- One item or field per line. -/
def indented : Layout :=
  ⟨fun level => newLine (level + 1), fun level => ',' :: newLine (level + 1), newLine, [':', ' ']⟩

/-- Items in brackets. Empty brackets hold nothing, whatever the layout. -/
def bracket (layout : Layout) (level : Nat) (opening closing : Char) (items : List (List Char)) :
    List Char :=
  if items.isEmpty then [opening, closing]
  else
    opening :: layout.before level ++ join (layout.between level) items ++ layout.after level ++
      [closing]

end Layout

mutual

/-- A value at a level of nesting. -/
def write (layout : Layout) (level : Nat) : Json → List Char
  | .null => ['n', 'u', 'l', 'l']
  | .bool true => ['t', 'r', 'u', 'e']
  | .bool false => ['f', 'a', 'l', 's', 'e']
  | .number n => writeNumber n
  | .string s => quote s.toList
  | .array items => layout.bracket level '[' ']' (writeItems layout (level + 1) items)
  | .object fields => layout.bracket level '\x7B' '\x7D' (writeFields layout (level + 1) fields)
  | .malformed => ['n', 'u', 'l', 'l']

/-- The items of an array. -/
def writeItems (layout : Layout) (level : Nat) : List Json → List (List Char)
  | [] => []
  | x :: xs => write layout level x :: writeItems layout level xs

/-- The fields of an object. -/
def writeFields (layout : Layout) (level : Nat) : List (String × Json) → List (List Char)
  | [] => []
  | (name, x) :: rest =>
    (quote name.toList ++ layout.colon ++ write layout level x) :: writeFields layout level rest

end

/-- A value on one line without blanks. -/
def compact (x : Json) : String := String.ofList (write .compact 0 x)

/-- A value with one item or field per line. -/
def pretty (x : Json) : String := String.ofList (write .indented 0 x)

end TestImpact.Json
