/-
# Rounding to the nearest binary number

The number of the 64-bit format nearest to a fraction, and of two equally near
ones the one with an even significand. A decimal numeral is such a fraction, so
reading decimal text is correctly rounded at every length.
-/

import QuoteBoard.Binary64.Basic

namespace QuoteBoard.Binary64

/-- A quotient rounded to the nearest natural number; a half goes to the even neighbour. -/
def roundHalfEven (num den : Nat) : Nat :=
  let q := num / den
  let r := num % den
  if 2 * r < den then q else if den < 2 * r then q + 1 else q + q % 2

/-- The fraction `num / (den · 2 ^ e)`, as numerator and denominator. -/
def scaleDown (num den : Nat) : Int → Nat × Nat
  | .ofNat e => (num, den * Nat.pow 2 e)
  | .negSucc e => (num * Nat.pow 2 (e + 1), den)

/-- The exponent of the largest power of two that is at most `num / den`. -/
def floorLog2 (num den : Nat) : Int :=
  let guess : Int := num.log2 - den.log2
  let (n, d) := scaleDown num den guess
  if n < d then guess - 1 else guess

/-- The number nearest to the positive fraction `num / den`. -/
def ofFraction (negative : Bool) (num den : Nat) : Binary64 :=
  if num = 0 then zero negative
  else
    let e : Int := max (-1074) (floorLog2 num den - 52)
    let (n, d) := scaleDown num den e
    let low := (e + 1074).toNat * fractionCount + roundHalfEven n d
    if low < specialExponent * fractionCount then ofMagnitudeBits negative low
    else infinity negative

/-- The number of decimal digits of a positive natural number. -/
def decimalLength (n : Nat) : Nat := (Nat.toDigits 10 n).length

/-- The number nearest to `digits · 10 ^ scale`. The first two cases cut short what is
far outside the format: below half its least positive number, or beyond its greatest. -/
def ofDecimal (negative : Bool) (digits : Nat) (scale : Int) : Binary64 :=
  let order : Int := decimalLength digits + scale
  if digits = 0 ∨ order < -330 then zero negative
  else if 310 < order then infinity negative
  else
    match scale with
    | .ofNat e => ofFraction negative (digits * Nat.pow 10 e) 1
    | .negSucc e => ofFraction negative digits (Nat.pow 10 (e + 1))

/-- The number nearest to an integer. -/
def ofInt (i : Int) : Binary64 := ofFraction (i < 0) i.natAbs 1

end QuoteBoard.Binary64
