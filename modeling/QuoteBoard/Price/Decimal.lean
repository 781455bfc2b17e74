/-
# Decimal numbers

The text of a price is found by way of a decimal number. A decimal number has a coefficient of
ninety-six bits and at most twenty-eight decimals. What can be done with one is up to a library:
a price becomes the decimal number of its value, a decimal number is rounded to hundredths, and
it is written with two decimals.

The library here keeps as many decimals as there is room for and cuts the others off. The sign of
a number is a part of its own, so it outlives the last digit. It goes when rounding to hundredths
leaves nothing of a number.
-/

import QuoteBoard.Binary64.Basic

namespace QuoteBoard.Price

/-- The number of coefficients: two to the ninety-sixth power. -/
def coefficientCount : Nat := 79228162514264337593543950336

/-- The greatest number of decimals. -/
def maxScale : Nat := 28

/-- A decimal number `± coefficient / 10 ^ scale`. Zero has a sign, too. -/
structure Decimal where
  negative : Bool
  coefficient : Nat
  scale : Nat
  coefficient_lt : coefficient < coefficientCount
  scale_le : scale ≤ maxScale

/-- What a library of decimal numbers offers. -/
structure DecimalLibrary where
  /-- The decimal number of a finite number, with as many of its digits as there is room for. -/
  retain? : Binary64 → Option Decimal
  /-- A decimal number rounded to hundredths, a half away from zero. -/
  round : Decimal → Decimal
  /-- A decimal number written with two decimals. -/
  write : Decimal → String

/-- A quotient rounded to the nearest natural number; a half goes up. -/
def roundHalfUp (num den : Nat) : Nat := (2 * num + den) / (2 * den)

/-- A number of hundredths with its point before the last two digits. -/
def withPoint (cents : Nat) : String :=
  let tens := Nat.digitChar (cents / 10 % 10)
  let ones := Nat.digitChar (cents % 10)
  Nat.repr (cents / 100) ++ String.ofList ['.', tens, ones]

/-! ## A library that cuts decimals off -/

/-- A number is not too large. -/
def InRange (x : Binary64) : Prop := x.magnitude.1 ≤ (coefficientCount - 1) * x.magnitude.2

instance (x : Binary64) : Decidable (InRange x) := inferInstanceAs (Decidable (_ ≤ _))

/-- With so many decimals a number still has room. -/
def HasRoom (x : Binary64) (scale : Nat) : Prop :=
  x.magnitude.1 * Nat.pow 10 scale < coefficientCount * x.magnitude.2

instance (x : Binary64) (scale : Nat) : Decidable (HasRoom x scale) :=
  inferInstanceAs (Decidable (_ < _))

theorem hasRoom_zero {x : Binary64} (h : InRange x) : HasRoom x 0 := by
  have hden := x.magnitude_snd_pos
  have hone : x.magnitude.1 * Nat.pow 10 0 = x.magnitude.1 := Nat.mul_one _
  rw [InRange, coefficientCount] at h
  rw [HasRoom, hone, coefficientCount]
  omega

/-- The greatest number of decimals, up to a bound, that there is room for. -/
def roomUpTo (x : Binary64) : Nat → Nat
  | 0 => 0
  | scale + 1 => if HasRoom x (scale + 1) then scale + 1 else roomUpTo x scale

theorem roomUpTo_le (x : Binary64) (bound : Nat) : roomUpTo x bound ≤ bound := by
  induction bound with
  | zero => exact Nat.le_refl 0
  | succ scale ih =>
      rw [roomUpTo]
      split
      · exact Nat.le_refl _
      · exact Nat.le_succ_of_le ih

theorem hasRoom_roomUpTo {x : Binary64} (h : InRange x) (bound : Nat) :
    HasRoom x (roomUpTo x bound) := by
  induction bound with
  | zero => exact hasRoom_zero h
  | succ scale ih =>
      rw [roomUpTo]
      split
      · assumption
      · exact ih

/-- The number of decimals that are kept. -/
def keptScale (x : Binary64) : Nat := roomUpTo x maxScale

/-- The decimal number of a number in range, its further decimals cut off. -/
def cut (x : Binary64) (h : InRange x) : Decimal where
  negative := x.isNegative
  coefficient := x.magnitude.1 * Nat.pow 10 (keptScale x) / x.magnitude.2
  scale := keptScale x
  coefficient_lt := Nat.div_lt_of_lt_mul
    (Nat.mul_comm coefficientCount _ ▸ hasRoom_roomUpTo h maxScale)
  scale_le := roomUpTo_le x maxScale

/-- How many units of the twenty-ninth decimal make one. -/
def finestPerOne : Nat := 100000000000000000000000000000

/-- Not even a last decimal is made of a number. Of the digits behind the twenty-eighth, those
beyond the twenty-ninth are rounded off one after the other, from the last one on and a half up,
and then a number below ten units of the twenty-ninth decimal is lost. The roundings carry a
number to ten units exactly if it is more than 9.444…, which is 85 / 9, of them. -/
def IsLost (x : Binary64) : Prop :=
  x.isZero = false ∧ 9 * (finestPerOne * x.magnitude.1) < 85 * x.magnitude.2

instance (x : Binary64) : Decidable (IsLost x) := inferInstanceAs (Decidable (_ ∧ _))

/-- Zero without decimals. -/
def Decimal.zero (negative : Bool) : Decimal := ⟨negative, 0, 0, by decide, by decide⟩

/-- The decimal number of a finite number. What is lost leaves a zero without decimals, which has
its sign. -/
def cutIfInRange? (x : Binary64) : Option Decimal :=
  if IsLost x then some (.zero x.isNegative)
  else if h : InRange x then some (cut x h) else none

theorem roundHalfUp_lt {c scale : Nat} (hc : c < coefficientCount) (hscale : 2 < scale) :
    roundHalfUp (100 * c) (Nat.pow 10 scale) < coefficientCount := by
  have hpow : 1000 ≤ Nat.pow 10 scale := Nat.pow_le_pow_right (n := 10) (by decide) hscale
  apply Nat.div_lt_of_lt_mul
  have hroom := Nat.mul_le_mul_right coefficientCount hpow
  simp only [coefficientCount] at hc hroom ⊢
  omega

/-- A decimal number rounded to hundredths. Nothing happens to one without further decimals;
where nothing is left of one with further decimals, its sign goes, too. -/
def toHundredths (d : Decimal) : Decimal :=
  if h : 2 < d.scale then
    let cents := roundHalfUp (100 * d.coefficient) (Nat.pow 10 d.scale)
    ⟨d.negative && cents != 0, cents, 2, roundHalfUp_lt d.coefficient_lt h, by decide⟩
  else d

/-- The library that cuts further decimals off. -/
def cuttingLibrary : DecimalLibrary where
  retain? := cutIfInRange?
  round := toHundredths
  write d :=
    (if d.negative then "-" else "") ++ withPoint (d.coefficient * Nat.pow 10 (2 - d.scale))

end QuoteBoard.Price
