import TestImpact.Calendar
import TestImpact.Decimal.Binary
import TestImpact.Decimal.Natural
import TestImpact.Text.Hex
import TestImpact.Toml.Value

/-!
# Numbers, dates and booleans

A value that is neither a string nor has parts is written as one token. Integers have 64 bits and a
sign; an underscore may stand between two digits. Dates have to exist in the calendar.
-/

namespace TestImpact.Toml

/-- Whether a character may stand in a token. -/
def isTokenChar (c : Char) : Bool :=
  c.isAlphanum || c = '_' || c = '+' || c = '-' || c = '.' || c = ':'

/-! ### Numbers -/

/-- Digits without the underscores between them. -/
def ungroup? (isDigit : Char → Bool) : List Char → Option (List Char)
  | [] => none
  | [c] => if isDigit c then some [c] else none
  | c :: '_' :: rest => if isDigit c then (ungroup? isDigit rest).map (c :: ·) else none
  | c :: rest => if isDigit c then (ungroup? isDigit rest).map (c :: ·) else none

/-- The digits of a number, of which no zero stands before others. -/
def wholeDigits? (s : List Char) : Option (List Char) :=
  (ungroup? Char.isDigit s).filter fun ds => ds.length = 1 || ds.head? ≠ some '0'

/-- A sign and what follows it. -/
def cutSign : List Char → Bool × List Char
  | '+' :: rest => (false, rest)
  | '-' :: rest => (true, rest)
  | s => (false, s)

/-- The value of a digit in hexadecimal, octal or binary. -/
def radixDigit? (radix : Nat) (c : Char) : Option Nat := (Text.hexValue? c).filter (· < radix)

/-- The number that digits of a radix write. -/
def radixValue? (radix : Nat) (s : List Char) : Option Int := do
  let ds ← ungroup? (fun c => (radixDigit? radix c).isSome) s
  return (ds.foldl (fun n d => radix * n + (radixDigit? radix d).getD 0) 0 : Nat)

/-- The number that decimal digits with a sign write. -/
def decimalValue? (s : List Char) : Option Int := do
  let (negative, s) := cutSign s
  let n : Int := Decimal.valueFrom 0 (← wholeDigits? s)
  return if negative then -n else n

/-- Read an integer that 64 bits hold. -/
def integer? (token : List Char) : Option Int :=
  let n := match token with
    | '0' :: 'x' :: ds => radixValue? 16 ds
    | '0' :: 'o' :: ds => radixValue? 8 ds
    | '0' :: 'b' :: ds => radixValue? 2 ds
    | _ => decimalValue? token
  n.filter fun n => -9223372036854775808 ≤ n ∧ n ≤ 9223372036854775807

/-- Whether `digits * 10 ^ exponent` lies beyond the numbers of double precision. -/
def isTooLarge (digits : Nat) (exponent : Int) : Bool :=
  let places := (toString digits).length + exponent
  digits ≠ 0 && 0 ≤ places && (400 < places ||
    (Decimal.Binary.ofRatio? false (digits * Nat.pow 10 exponent.toNat)
      (Nat.pow 10 (-exponent).toNat)).isNone)

/-- The value of an exponent. -/
def exponent? (s : List Char) : Option Int := do
  let (negative, s) := cutSign s
  let n : Int := Decimal.valueFrom 0 (← ungroup? Char.isDigit s)
  return if negative then -n else n

/-- Whether a token is a number with a point, an exponent or both. A positive number may not be too
large. -/
def isFloat (token : List Char) : Bool :=
  let (negative, s) := cutSign token
  let isExponentMark (c : Char) : Bool := c = 'e' || c = 'E'
  let mantissa := s.takeWhile (!isExponentMark ·)
  let exponent := match s.dropWhile (!isExponentMark ·) with
    | [] => some 0
    | _ :: rest => exponent? rest
  let fraction := match mantissa.dropWhile (· ≠ '.') with
    | [] => some []
    | _ :: rest => ungroup? Char.isDigit rest
  match wholeDigits? (mantissa.takeWhile (· ≠ '.')), fraction, exponent with
  | some whole, some fraction, some exponent =>
    s.any (fun c => c = '.' || isExponentMark c) &&
      (negative ||
        !isTooLarge (Decimal.valueFrom 0 (whole ++ fraction)) (exponent - fraction.length))
  | _, _, _ => false

/-- Whether a token is infinite or no number, with or without a sign. -/
def isSpecialFloat (token : List Char) : Bool :=
  let s := (cutSign token).2
  s = ['i', 'n', 'f'] || s = ['n', 'a', 'n']

/-! ### Dates and times -/

/-- Whether two digits write a number from `low` to `high`. -/
def isBetween (low high : Nat) (tens ones : Char) : Bool :=
  (Decimal.digits? [tens, ones]).any fun n => low ≤ n && n ≤ high

/-- Whether the text is a date that exists in the calendar. -/
def isDate : List Char → Bool
  | [y₁, y₂, y₃, y₄, '-', m₁, m₂, '-', d₁, d₂] =>
    match Decimal.digits? [y₁, y₂, y₃, y₄], Decimal.digits? [m₁, m₂] with
    | some year, some month =>
      isBetween 1 12 m₁ m₂ && isBetween 1 (Calendar.daysOfMonth year month) d₁ d₂
    | _, _ => false
  | _ => false

/-- What follows a time of day, of which the seconds may have a fraction. -/
def afterTime? : List Char → Option (List Char)
  | h₁ :: h₂ :: ':' :: m₁ :: m₂ :: ':' :: s₁ :: s₂ :: rest =>
    if isBetween 0 23 h₁ h₂ && isBetween 0 59 m₁ m₂ && isBetween 0 60 s₁ s₂ then
      match rest with
      | '.' :: rest =>
        if rest.head?.any Char.isDigit then some (rest.dropWhile Char.isDigit) else none
      | rest => some rest
    else none
  | _ => none

/-- Whether the text is an offset from universal time, or nothing. -/
def isOffset : List Char → Bool
  | [] => true
  | [c] => c = 'Z' || c = 'z'
  | [sign, h₁, h₂, ':', m₁, m₂] =>
    (sign = '+' || sign = '-') && isBetween 0 23 h₁ h₂ && isBetween 0 59 m₁ m₂
  | _ => false

/-- Whether the text is a time of day. -/
def isTime (s : List Char) : Bool := afterTime? s = some []

/-- Whether the text is a time of day that may have an offset. -/
def isOffsetTime (s : List Char) : Bool := (afterTime? s).any isOffset

/-- Whether the text is a date, a time, or both with a letter between them. -/
def isMoment (token : List Char) : Bool :=
  isTime token ||
    isDate (token.take 10) &&
      match token.drop 10 with
      | [] => true
      | c :: rest => (c = 'T' || c = 't') && isOffsetTime rest

/-! ### Tokens -/

/-- Read a token. -/
def ofToken? (token : List Char) : Option Toml :=
  if token = ['t', 'r', 'u', 'e'] then some (.boolean true)
  else if token = ['f', 'a', 'l', 's', 'e'] then some (.boolean false)
  else if isMoment token then some (.time (String.ofList token))
  else
    match integer? token with
    | some n => some (.integer n)
    | none =>
      if isFloat token || isSpecialFloat token then some (.float (String.ofList token)) else none

/-- Read a value that is one token, or a date and a time with a blank between them. -/
def readScalar (s : List Char) : Option (Toml × List Char) :=
  let token := s.takeWhile isTokenChar
  let single := (ofToken? token).map (·, s.dropWhile isTokenChar)
  match s.dropWhile isTokenChar with
  | ' ' :: rest =>
    let second := rest.takeWhile isTokenChar
    if isDate token && isOffsetTime second then
      some (.time (String.ofList (token ++ ' ' :: second)), rest.dropWhile isTokenChar)
    else single
  | _ => single

end TestImpact.Toml
