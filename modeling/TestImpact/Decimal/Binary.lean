/-!
# Binary floating point

A finite number of 53 significant bits, with the exponents of the double precision format. The
numbers of this format are the values `mantissa * 2 ^ exponent`; `ofRatio?` rounds a ratio to the
nearest of them, a tie to the one with an even mantissa.
-/

namespace TestImpact.Decimal

/-- A finite number in double precision. -/
structure Binary where
  negative : Bool
  mantissa : Nat
  exponent : Int
  deriving DecidableEq, Repr

namespace Binary

/-- The least exponent. -/
def minExponent : Int := -1074

/-- The greatest exponent. -/
def maxExponent : Int := 971

/-- The bound of mantissas, which have 53 bits. -/
def mantissaBound : Nat := 9007199254740992

/-- The least mantissa that has 53 bits. -/
def leastNormal : Nat := 4503599627370496

/-- Zero, with its sign. -/
def zero (negative : Bool) : Binary := ⟨negative, 0, minExponent⟩

/-- The quotient of two numbers rounded to the nearest one, a tie to the even one. -/
def divRound (num den : Nat) : Nat :=
  let q := num / den
  let r := num % den
  if den < 2 * r ∨ (2 * r = den ∧ q % 2 = 1) then q + 1 else q

/-- The quotient `num / (den * 2 ^ e)`, rounded. -/
def scaled (num den : Nat) (e : Int) : Nat :=
  if 0 ≤ e then divRound num (den * Nat.pow 2 e.toNat)
  else divRound (num * Nat.pow 2 (-e).toNat) den

/-- The number nearest to `num / den`, unless it is too large for the format. -/
def ofRatio? (negative : Bool) (num den : Nat) : Option Binary :=
  if num = 0 then some (zero negative)
  else
    let guess : Int := (num.log2 : Int) - den.log2 - 53
    let floor := max minExponent guess
    let e := if scaled num den floor < mantissaBound then floor else floor + 1
    let m := scaled num den e
    let (m, e) := if m = mantissaBound then (leastNormal, e + 1) else (m, e)
    if maxExponent < e then none else some ⟨negative, m, e⟩

/-- The power of two that belongs to an exponent, as a ratio. -/
def powerOfTwo (e : Int) : Nat × Nat :=
  if 0 ≤ e then (Nat.pow 2 e.toNat, 1) else (1, Nat.pow 2 (-e).toNat)

/-- The product of the sizes of two numbers, with the sign of the first. -/
def mul? (x y : Binary) : Option Binary :=
  let (n, d) := powerOfTwo (x.exponent + y.exponent)
  ofRatio? x.negative (x.mantissa * y.mantissa * n) d

/-- The quotient of the sizes of two numbers, with the sign of the first. -/
def div? (x y : Binary) : Option Binary :=
  let (n, d) := powerOfTwo (x.exponent - y.exponent)
  ofRatio? x.negative (x.mantissa * n) (y.mantissa * d)

end Binary

end TestImpact.Decimal
