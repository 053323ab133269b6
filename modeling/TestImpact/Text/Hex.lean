/-!
# Hexadecimal digits

The digits `0` to `9` and the letters `a` to `f`, small or capital, stand for the numbers up to 15.
In hexadecimal, texts name characters by their code points.
-/

namespace TestImpact.Text

/-- The value of a hexadecimal digit. -/
def hexValue? (c : Char) : Option Nat :=
  if c.isDigit then some (c.toNat - '0'.toNat)
  else if 'a' ≤ c ∧ c ≤ 'f' then some (c.toNat - 'a'.toNat + 10)
  else if 'A' ≤ c ∧ c ≤ 'F' then some (c.toNat - 'A'.toNat + 10)
  else none

/-- The number that some hexadecimal digits write, the digits of `value` standing before them. -/
def hexNumberFrom? (value : Nat) : List Char → Option Nat
  | [] => some value
  | c :: rest => (hexValue? c).bind fun d => hexNumberFrom? (16 * value + d) rest

/-- The number that some hexadecimal digits write. -/
def hexNumber? (digits : List Char) : Option Nat := hexNumberFrom? 0 digits

/-- The character of a code point. -/
def charOfCode? (n : Nat) : Option Char := if n.isValidChar then some (Char.ofNat n) else none

end TestImpact.Text
