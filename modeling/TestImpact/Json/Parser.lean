import TestImpact.Json.Number
import TestImpact.Json.Printer
import TestImpact.Text.Hex

/-!
# Reading JSON

A reader takes a part off the start of a text and returns the rest. Numbers and strings that are
written correctly but denote no value are read as `malformed`, so that whoever passes over them need
not care.
-/

namespace TestImpact.Json

/-- The blanks between the parts of a text. -/
def isBlank (c : Char) : Bool := c = ' ' || c = '\n' || c = '\t' || c = '\r'

/-- What follows the blanks at the start of a text. -/
def skip (s : List Char) : List Char := s.dropWhile isBlank

/-- The number of four hexadecimal digits. -/
def codeUnit? (a b c d : Char) : Option Nat := Text.hexNumber? [a, b, c, d]

/-- The character of an escape by a single letter or sign. -/
def simpleEscape? : Char → Option Char
  | '"' => some '"'
  | '\\' => some '\\'
  | '/' => some '/'
  | 'b' => some '\x08'
  | 'f' => some '\x0C'
  | 'n' => some '\n'
  | 'r' => some '\r'
  | 't' => some '\t'
  | _ => none

/-- What has been read of a string: its characters, latest first, unless an escape denotes none, and
the first half of a surrogate pair that waits for the second. -/
structure StringState where
  text : Option (List Char) := some []
  half : Option Nat := none

namespace StringState

/-- Add a character. Half of a pair before it is no character. -/
def push (st : StringState) (c : Char) : StringState :=
  ⟨if st.half.isSome then none else st.text.map (c :: ·), none⟩

/-- Add a unit of UTF-16. -/
def pushUnit (st : StringState) (unit : Nat) : StringState :=
  match st.half with
  | some high =>
    if 0xDC00 ≤ unit ∧ unit < 0xE000 then
      ⟨st.text.map (Char.ofNat (0x10000 + 1024 * (high - 0xD800) + (unit - 0xDC00)) :: ·), none⟩
    else ⟨none, none⟩
  | none =>
    if 0xD800 ≤ unit ∧ unit < 0xDC00 then ⟨st.text, some unit⟩
    else if 0xDC00 ≤ unit ∧ unit < 0xE000 then ⟨none, none⟩
    else st.push (Char.ofNat unit)

/-- The whole string. -/
def result (st : StringState) : Option String :=
  if st.half.isSome then none else st.text.map fun cs => String.ofList cs.reverse

end StringState

/-- Read a string up to its closing quote. The string is absent if it denotes no text. -/
def readString (st : StringState) : List Char → Option (Option String × List Char)
  | [] => none
  | '\\' :: 'u' :: a :: b :: c :: d :: rest =>
    match codeUnit? a b c d with
    | some unit => readString (st.pushUnit unit) rest
    | none => none
  | '\\' :: c :: rest =>
    match simpleEscape? c with
    | some x => readString (st.push x) rest
    | none => none
  | c :: rest =>
    if c = '"' then some (st.result, rest)
    else if c = '\\' || c.toNat < 0x20 then none
    else readString (st.push c) rest

/-- Digits, at least one of them. -/
def digits1 (s : List Char) : Option (List Char × List Char) :=
  match s.takeWhile Char.isDigit with
  | [] => none
  | ds => some (ds, s.dropWhile Char.isDigit)

/-- The digits before the point: no zero stands before others. -/
def wholePart (s : List Char) : Option (List Char × List Char) := do
  let (ds, rest) ← digits1 s
  if ds.head? = some '0' && ds.length ≠ 1 then none else some (ds, rest)

/-- The digits behind the point, if there is one. -/
def fractionPart (s : List Char) : Option (Option (List Char) × List Char) :=
  match s with
  | '.' :: rest => do
    let (ds, rest) ← digits1 rest
    some (some ds, rest)
  | s => some (none, s)

/-- The sign and the digits of the exponent, if there is one. -/
def exponentPart (s : List Char) : Option (Option (Bool × List Char) × List Char) :=
  match s with
  | c :: rest =>
    if c = 'e' || c = 'E' then do
      let (negative, rest) := match rest with
        | '+' :: rest => (false, rest)
        | '-' :: rest => (true, rest)
        | rest => (false, rest)
      let (ds, rest) ← digits1 rest
      some (some (negative, ds), rest)
    else some (none, c :: rest)
  | [] => some (none, [])

/-- Read a number whose sign has been read. -/
def readNumber (negative : Bool) (s : List Char) : Option (NumberText × List Char) := do
  let (whole, s) ← wholePart s
  let (fraction, s) ← fractionPart s
  let (exponent, s) ← exponentPart s
  some (⟨negative, whole, fraction, exponent⟩, s)

/-- The value of a number. -/
def ofNumberText (t : NumberText) : Json :=
  match t.value? with
  | some n => .number n
  | none => .malformed

/-- An object with one more field at its start, unless the field's name denotes no text. -/
def addField (name : Option String) (value : Json) : Option (List (String × Json)) →
    Option (List (String × Json))
  | none => none
  | some fields => name.map fun name => (name, value) :: fields

mutual

/-- Read a value, with at most `bound` steps down and forward. -/
def readValue (bound : Nat) (s : List Char) : Option (Json × List Char) :=
  match bound with
  | 0 => none
  | bound + 1 =>
    match skip s with
    | 'n' :: 'u' :: 'l' :: 'l' :: rest => some (.null, rest)
    | 't' :: 'r' :: 'u' :: 'e' :: rest => some (.bool true, rest)
    | 'f' :: 'a' :: 'l' :: 's' :: 'e' :: rest => some (.bool false, rest)
    | '"' :: rest => do
      let (text, rest) ← readString {} rest
      some (match text with
        | some text => .string text
        | none => .malformed, rest)
    | '[' :: rest =>
      match skip rest with
      | ']' :: rest => some (.array [], rest)
      | rest => do
        let (items, rest) ← readItems bound rest
        some (.array items, rest)
    | '\x7B' :: rest =>
      match skip rest with
      | '\x7D' :: rest => some (.object [], rest)
      | rest => do
        let (fields, rest) ← readFields bound rest
        some (match fields with
          | some fields => .object fields
          | none => .malformed, rest)
    | '-' :: rest => do
      let (t, rest) ← readNumber true rest
      some (ofNumberText t, rest)
    | rest => do
      let (t, rest) ← readNumber false rest
      some (ofNumberText t, rest)

/-- Read the items of an array, at least one of them, and its closing bracket. -/
def readItems (bound : Nat) (s : List Char) : Option (List Json × List Char) :=
  match bound with
  | 0 => none
  | bound + 1 => do
    let (x, rest) ← readValue bound s
    match skip rest with
    | ',' :: rest => do
      let (xs, rest) ← readItems bound rest
      some (x :: xs, rest)
    | ']' :: rest => some ([x], rest)
    | _ => none

/-- Read the fields of an object, at least one of them, and its closing brace. -/
def readFields (bound : Nat) (s : List Char) : Option (Option (List (String × Json)) × List Char) :=
  match bound with
  | 0 => none
  | bound + 1 =>
    match skip s with
    | '"' :: rest => do
      let (name, rest) ← readString {} rest
      match skip rest with
      | ':' :: rest => do
        let (x, rest) ← readValue bound rest
        match skip rest with
        | ',' :: rest => do
          let (more, rest) ← readFields bound rest
          some (addField name x more, rest)
        | '\x7D' :: rest => some (addField name x (some []), rest)
        | _ => none
      | _ => none
    | _ => none

end

/-- The value of a JSON text, with nothing but blanks around it. -/
def parse? (text : List Char) : Option Json :=
  match readValue (2 * text.length + 2) text with
  | some (x, rest) => if (skip rest).isEmpty then some x else none
  | none => none

end TestImpact.Json
