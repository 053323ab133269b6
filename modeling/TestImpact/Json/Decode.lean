import TestImpact.Json.Value

/-!
# Decoding JSON values

Decoders turn a value into a record, a list, a text or a number of bounded size. A record is written
as an object, in which unknown fields are passed over and a known one may stand once, or as an array
of its fields in their order.
-/

namespace TestImpact.Json

/-- A field of a record: its name, and whether it may be missing where the record is written as an
array. -/
structure FieldRule where
  name : String
  mayEnd : Bool := false
  deriving DecidableEq, Repr

/-- The value of a name among fields, of which there is at most one. -/
def uniqueField? (name : String) (fields : List (String × Json)) : Option (Option Json) :=
  match fields.filter (·.1 = name) with
  | [] => some none
  | [(_, x)] => some (some x)
  | _ => none

/-- The items of an array taken as the fields of a record. -/
def positional? : List FieldRule → List Json → Option (List (Option Json))
  | [], [] => some []
  | [], _ :: _ => none
  | rule :: rules, [] => if rule.mayEnd then (positional? rules []).map (none :: ·) else none
  | _ :: rules, x :: xs => (positional? rules xs).map (some x :: ·)

/-- The fields of a record in their order, absent where they are missing. -/
def record? (rules : List FieldRule) : Json → Option (List (Option Json))
  | .object fields => rules.mapM fun rule => uniqueField? rule.name fields
  | .array items => positional? rules items
  | _ => none

/-- A text. -/
def string? : Json → Option String
  | .string s => some s
  | _ => none

/-- A natural number below a bound. -/
def natural? (bound : Nat) : Json → Option Nat
  | .number (.integer n) => if 0 ≤ n ∧ n < bound then some n.toNat else none
  | _ => none

/-- A list. -/
def list? (item : Json → Option α) : Json → Option (List α)
  | .array items => items.mapM item
  | _ => none

/-- A value that `null` stands for the absence of. -/
def nullable? (decode : Json → Option α) : Json → Option (Option α)
  | .null => some none
  | x => (decode x).map some

/-- A field that may be missing or null. -/
def optional? (decode : Json → Option α) (field : Option Json) : Option (Option α) :=
  match field with
  | none => some none
  | some x => nullable? decode x

/-- A field that has a value of its own where it is missing. -/
def withDefault? (decode : Json → Option α) (default : α) (field : Option Json) : Option α :=
  match field with
  | none => some default
  | some x => decode x

/-- Fields in increasing order of their names, with one more field, which replaces one of the same
name. -/
def insertField (name : String) (x : Json) : List (String × Json) → List (String × Json)
  | [] => [(name, x)]
  | (n, y) :: rest =>
    if name < n then (name, x) :: (n, y) :: rest
    else if name = n then (name, x) :: rest
    else (n, y) :: insertField name x rest

mutual

/-- A value as data: the fields of its objects are in increasing order of their names, the last one
of a name being kept. Malformed parts are refused, and so are more than `depth` levels of
nesting. -/
def data? (depth : Nat) : Json → Option Json
  | .array items =>
    match depth with
    | 0 => none
    | depth + 1 => (dataItems? depth items).map .array
  | .object fields =>
    match depth with
    | 0 => none
    | depth + 1 => (dataFields? depth [] fields).map .object
  | .malformed => none
  | x => some x

/-- The items of an array as data. -/
def dataItems? (depth : Nat) : List Json → Option (List Json)
  | [] => some []
  | x :: xs =>
    match data? depth x, dataItems? depth xs with
    | some x, some xs => some (x :: xs)
    | _, _ => none

/-- The fields of an object as data, after those in `before`. -/
def dataFields? (depth : Nat) (before : List (String × Json)) :
    List (String × Json) → Option (List (String × Json))
  | [] => some before
  | (name, x) :: rest =>
    match data? depth x with
    | some x => dataFields? depth (insertField name x before) rest
    | none => none

end

end TestImpact.Json
