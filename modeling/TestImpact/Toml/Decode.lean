import TestImpact.Toml.Value

/-!
# Decoding values of settings files

Decoders turn a value into a section, a list, a text, a number or a truth value. A section is
written as a table, in which unknown names are passed over, or as an array of its values in their
order.
-/

namespace TestImpact.Toml

/-- Some values taken as those of names in their order. A name without a value is missing, and a
value without a name is passed over. -/
def positional : List String → List Toml → List (Option Toml)
  | [], _ => []
  | _ :: names, [] => none :: positional names []
  | _ :: names, x :: xs => some x :: positional names xs

/-- The values of the names of a section, absent where they are missing. A moment of time is taken
for a table that has none of the names. -/
def section? (names : List String) : Toml → Option (List (Option Toml))
  | .table fields => some (names.map (fields.lookup ·))
  | .array items => some (positional names items)
  | .time _ => some (names.map fun _ => none)
  | _ => none

/-- A text. -/
def string? : Toml → Option String
  | .string s => some s
  | _ => none

/-- A truth value. -/
def boolean? : Toml → Option Bool
  | .boolean b => some b
  | _ => none

/-- A natural number below a bound. -/
def natural? (bound : Nat) : Toml → Option Nat
  | .integer n => if 0 ≤ n ∧ n < bound then some n.toNat else none
  | _ => none

/-- A list. -/
def list? (item : Toml → Option α) : Toml → Option (List α)
  | .array items => items.mapM item
  | _ => none

/-- Whether a value has parts, but none are there. -/
def isEmpty : Toml → Bool
  | .array items => items.isEmpty
  | .table fields => fields.isEmpty
  | _ => false

/-- The name of a choice, written as a text or as a table with the name as its only key, under which
an empty table or array stands. -/
def choice? : Toml → Option String
  | .string name => some name
  | .table [(name, x)] => if x.isEmpty then some name else none
  | _ => none

/-- A value that may be missing. -/
def optional? (decode : Toml → Option α) : Option Toml → Option (Option α)
  | none => some none
  | some x => (decode x).map some

end TestImpact.Toml
