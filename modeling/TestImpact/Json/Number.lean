import TestImpact.Decimal.Natural
import TestImpact.Json.Value

/-!
# Numbers in JSON texts

A number without fraction and exponent is an integer if 64 bits hold it. Any other number is
a floating point number: the leading digits, as far as 64 bits hold them, are multiplied or divided
by a power of ten, and the last bit of the result may differ from that of the nearest number.
-/

namespace TestImpact

/-- The parts of a written number. -/
structure NumberText where
  negative : Bool
  whole : List Char
  fraction : Option (List Char)
  /-- The sign and the digits of the exponent. -/
  exponent : Option (Bool × List Char)
  deriving DecidableEq, Repr

namespace NumberText

/-- The greatest number of 64 bits. -/
def maxWord : Nat := Decimal.bound64 - 1

/-- The value of a digit. -/
def digitValue (d : Char) : Nat := d.toNat - '0'.toNat

/-- Leading digits as a number, and by how many places it has to be moved to the left. -/
structure Leading where
  significand : Nat := 0
  shift : Int := 0
  /-- Whether a digit has been left out. -/
  full : Bool := false

/-- One more digit before the point. -/
def Leading.addWhole (l : Leading) (d : Char) : Leading :=
  let next := 10 * l.significand + digitValue d
  if !l.full && next ≤ maxWord then { l with significand := next }
  else { l with shift := l.shift + 1, full := true }

/-- One more digit behind the point. -/
def Leading.addFraction (l : Leading) (d : Char) : Leading :=
  let next := 10 * l.significand + digitValue d
  if !l.full && next ≤ maxWord then { l with significand := next, shift := l.shift - 1 }
  else { l with full := true }

/-- A power of ten up to `10 ^ 308`, rounded. -/
def powerOfTen? (n : Nat) : Option Decimal.Binary := Decimal.Binary.ofRatio? false (Nat.pow 10 n) 1

/-- A floating point number times a power of ten, in at most `bound` steps. -/
def scale? (x : Decimal.Binary) (shift : Int) : Nat → Option Decimal.Binary
  | 0 => some (.zero x.negative)
  | bound + 1 =>
    if shift.natAbs ≤ 308 then do
      let power ← powerOfTen? shift.natAbs
      if 0 ≤ shift then x.mul? power else x.div? power
    else if x.mantissa = 0 then some x
    else if 0 ≤ shift then none
    else do
      let x ← x.div? (← powerOfTen? 308)
      scale? x (shift + 308) bound

/-- The floating point number of a significand and a shift, unless it is too large. -/
def float? (negative : Bool) (significand : Nat) (shift : Int) : Option JsonNumber := do
  let x ← Decimal.Binary.ofRatio? negative significand 1
  return .float (← scale? x shift 5)

/-- The greatest exponent that is taken as it is written. -/
def maxExponent : Nat := 2147483647

/-- The value of a written number, unless it is too large. -/
def value? (t : NumberText) : Option JsonNumber :=
  let whole := t.whole.foldl Leading.addWhole {}
  match t.fraction, t.exponent with
  | none, none =>
    if whole.full then float? t.negative whole.significand whole.shift
    else if !t.negative then some (.integer whole.significand)
    else if whole.significand = 0 ∨ 9223372036854775808 < whole.significand then
      float? true whole.significand 0
    else some (.integer (-whole.significand))
  | fraction, exponent =>
    let l := (fraction.getD []).foldl Leading.addFraction { whole with full := false }
    match exponent with
    | none => float? t.negative l.significand l.shift
    | some (negative, ds) =>
      let e := Decimal.valueFrom 0 ds
      if maxExponent < e then
        if l.significand ≠ 0 ∧ !negative then none else some (.float (.zero t.negative))
      else float? t.negative l.significand (if negative then l.shift - e else l.shift + e)

end NumberText

end TestImpact
