/-!
# Natural numbers in decimal

A number is written with the digits `0` to `9`, at least one of them, and may begin with a plus
sign and with zeros. It is read only if it lies below a bound.
-/

namespace TestImpact.Decimal

/-- The bound of the numbers that 32 bits hold. -/
def bound32 : Nat := 4294967296

/-- The bound of the numbers that 64 bits hold. -/
def bound64 : Nat := 18446744073709551616

/-- The value of a sequence of decimal digits that follows the digits of `value`. -/
def valueFrom (value : Nat) (ds : List Char) : Nat :=
  ds.foldl (fun n d => 10 * n + (d.toNat - '0'.toNat)) value

/-- The number that some digits write. -/
def digits? (ds : List Char) : Option Nat :=
  if ds.isEmpty || !ds.all Char.isDigit then none else some (valueFrom 0 ds)

/-- The number below `bound` that a text writes, with or without a plus sign. -/
def natural? (bound : Nat) (s : List Char) : Option Nat :=
  let number := match s with
    | '+' :: ds => digits? ds
    | ds => digits? ds
  number.filter (· < bound)

/-- The digits of a number write it. -/
theorem digits?_toDigits (n : Nat) : digits? (Nat.toDigits 10 n) = some n := by
  have hne : (Nat.toDigits 10 n).isEmpty = false := by simp [Nat.toDigits_ne_nil]
  have hall : (Nat.toDigits 10 n).all Char.isDigit = true :=
    List.all_eq_true.mpr fun _ => Nat.isDigit_of_mem_toDigits (by decide) (by decide)
  have hvalue : valueFrom 0 (Nat.toDigits 10 n) = n := Nat.ofDigitChars_ten_toDigits
  simp [digits?, hne, hall, hvalue]

end TestImpact.Decimal
