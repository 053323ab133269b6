import TestImpact.Decimal.Binary

/-!
# JSON values

The values that a JSON text denotes. An object keeps its fields in the order of the text, repeated
names included. `malformed` stands for a part that is written correctly but denotes no value: a
string with half of a surrogate pair, an object with such a name, or a number beyond all limits. It
does no harm where a value is passed over, and no reader of values accepts it.
-/

namespace TestImpact

/-- A number: an integer of at most 64 bits, or a floating point number. -/
inductive JsonNumber
  | integer (n : Int)
  | float (x : Decimal.Binary)
  deriving DecidableEq, Repr

/-- A JSON value. -/
inductive Json
  | null
  | bool (b : Bool)
  | number (n : JsonNumber)
  | string (s : String)
  | array (items : List Json)
  | object (fields : List (String × Json))
  | malformed
  deriving Repr, Inhabited

namespace Json

/-- The integer of a natural number. -/
def nat (n : Nat) : Json := .number (.integer n)

/-- A field of an object that is left out if it has no value. -/
def optional (name : String) (value : Option Json) : List (String × Json) :=
  value.toList.map (name, ·)

end Json

end TestImpact
