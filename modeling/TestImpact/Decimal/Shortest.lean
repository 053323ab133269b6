import TestImpact.Decimal.Binary

/-!
# Shortest decimals

Every number of a binary format is read back from any decimal that lies in its interval of
rounding. `shortest` finds the decimal with the fewest digits in that interval, and of those the
one nearest to the number.
-/

namespace TestImpact.Decimal

/-- The decimal `digits * 10 ^ exponent`. -/
structure Scientific where
  digits : Nat
  exponent : Int
  deriving DecidableEq, Repr

namespace Binary

/-- A comparison of `a * 10 ^ k` with `b * 2 ^ e`, for which both are brought to integers. -/
def compareScaled (a : Nat) (k : Int) (b : Nat) (e : Int) : Ordering :=
  let a := a * Nat.pow 10 k.toNat * Nat.pow 2 (-e).toNat
  let b := b * Nat.pow 2 e.toNat * Nat.pow 10 (-k).toNat
  compare a b

/-- Whether a decimal is read back as the number: it lies between the points halfway to the
neighbours, those points included if the mantissa is even. The neighbour below is nearer where the
mantissa is a power of two. -/
def readsBack (x : Binary) (d : Scientific) : Bool :=
  let lower :=
    if x.mantissa = leastNormal ∧ minExponent < x.exponent then 4 * x.mantissa - 1
    else 4 * x.mantissa - 2
  let upper := 4 * x.mantissa + 2
  let fromBelow := compareScaled d.digits d.exponent lower (x.exponent - 2)
  let fromAbove := compareScaled d.digits d.exponent upper (x.exponent - 2)
  let even := x.mantissa % 2 == 0
  (fromBelow == .gt || (even && fromBelow == .eq)) &&
    (fromAbove == .lt || (even && fromAbove == .eq))

/-- The greatest multiple of `10 ^ k` that does not exceed the number, as a number of steps. -/
def stepsBelow (x : Binary) (k : Int) : Nat :=
  (x.mantissa * Nat.pow 2 x.exponent.toNat * Nat.pow 10 (-k).toNat) /
    (Nat.pow 2 (-x.exponent).toNat * Nat.pow 10 k.toNat)

/-- The nearer of two neighbouring multiples of `10 ^ k` that is read back, if one of them is. Of
two equally near ones the even one is taken. -/
def onGrid? (x : Binary) (k : Int) : Option Scientific :=
  let n := stepsBelow x k
  let below : Scientific := ⟨n, k⟩
  let above : Scientific := ⟨n + 1, k⟩
  match x.readsBack below, x.readsBack above with
  | true, false => some below
  | false, true => some above
  | false, false => none
  | true, true =>
    match compareScaled (2 * n + 1) k (2 * x.mantissa) x.exponent with
    | .gt => some below
    | .lt => some above
    | .eq => some (if n % 2 = 0 then below else above)

/-- Search grids from the coarse one at `k` to finer ones, `bound` of them at most. -/
def searchGrids (x : Binary) (k : Int) : Nat → Scientific
  | 0 => ⟨stepsBelow x k, k⟩
  | bound + 1 => (onGrid? x k).getD (searchGrids x (k - 1) bound)

/-- A decimal without zeros at its end, `bound` of which are taken off at most. -/
def dropZeros (d : Scientific) : Nat → Scientific
  | 0 => d
  | bound + 1 =>
    if d.digits ≠ 0 ∧ d.digits % 10 = 0 then dropZeros ⟨d.digits / 10, d.exponent + 1⟩ bound else d

/-- The shortest decimal that is read back as a positive number, and of the shortest the nearest. -/
def shortest (x : Binary) : Scientific :=
  let top : Int := ((x.mantissa.log2 + 1 : Int) + x.exponent) * 30103 / 100000 + 1
  let found := searchGrids x top 21
  dropZeros found 20

end Binary

end TestImpact.Decimal
