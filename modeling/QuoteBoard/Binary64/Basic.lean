/-
# Binary floating-point numbers

A price is a number in the 64-bit binary format: a sign, eleven exponent bits and
fifty-two fraction bits. No arithmetic is done on prices. They are read from
decimal text, compared with the integers and printed, so a number is kept as its
bits together with the exact value that the bits stand for: a finite number is
`± significand · 2 ^ exponent`, with a natural significand and an integer exponent.
-/

namespace QuoteBoard

/-- A number in the 64-bit binary format, by its bits. -/
structure Binary64 where
  /-- Sign, exponent and fraction, from the top. -/
  bits : UInt64
  deriving DecidableEq, Inhabited

namespace Binary64

/-- What the sign bit counts among the bits: two to the sixty-third power. -/
def signWeight : Nat := 9223372036854775808

/-- The number of values of the fraction bits: two to the fifty-second power. -/
def fractionCount : Nat := 4503599627370496

/-- The exponent bits of what is no finite number. -/
def specialExponent : Nat := 2047

/-- The sign bit is set. -/
def isNegative (x : Binary64) : Bool := signWeight ≤ x.bits.toNat

/-- The eleven exponent bits, as a number. -/
def exponentField (x : Binary64) : Nat := x.bits.toNat / fractionCount % 2048

/-- The fifty-two fraction bits, as a number. -/
def fractionField (x : Binary64) : Nat := x.bits.toNat % fractionCount

/-- The number is neither infinite nor undefined. -/
def isFinite (x : Binary64) : Bool := x.exponentField != specialExponent

/-- The bits stand for no number. -/
def isNaN (x : Binary64) : Bool := x.exponentField == specialExponent && x.fractionField != 0

/-- The natural number in front of the power of two. -/
def significand (x : Binary64) : Nat :=
  if x.exponentField = 0 then x.fractionField else fractionCount + x.fractionField

/-- The exponent of the power of two. -/
def exponent (x : Binary64) : Int := (max x.exponentField 1 : Nat) - 1075

/-- The size of a finite number as a fraction: numerator and denominator. -/
def magnitude (x : Binary64) : Nat × Nat :=
  match x.exponent with
  | .ofNat e => (x.significand * Nat.pow 2 e, 1)
  | .negSucc e => (x.significand, Nat.pow 2 (e + 1))

theorem magnitude_snd_pos (x : Binary64) : 0 < x.magnitude.2 := by
  unfold magnitude
  cases x.exponent with
  | ofNat e => exact Nat.one_pos
  | negSucc e => exact Nat.pow_pos Nat.two_pos

/-- The number is zero, of either sign. -/
def isZero (x : Binary64) : Bool := x.exponentField == 0 && x.fractionField == 0

/-- A number from its sign and the sixty-three bits below it. -/
def ofMagnitudeBits (negative : Bool) (low : Nat) : Binary64 :=
  ⟨UInt64.ofNat (low + if negative then signWeight else 0)⟩

/-- Zero, with a sign. -/
def zero (negative : Bool) : Binary64 := ofMagnitudeBits negative 0

/-- Infinity, with a sign. -/
def infinity (negative : Bool) : Binary64 :=
  ofMagnitudeBits negative (specialExponent * fractionCount)

/-- The undefined number that readers of text produce. -/
def nan : Binary64 :=
  ofMagnitudeBits false (specialExponent * fractionCount + fractionCount / 2)

/-- The integer that a finite number is equal to, if it is one. -/
def toInt? (x : Binary64) : Option Int :=
  if x.isFinite then
    let (num, den) := x.magnitude
    if num % den = 0 then
      some (if x.isNegative then -((num / den : Nat) : Int) else (num / den : Nat))
    else none
  else none

end Binary64

end QuoteBoard
