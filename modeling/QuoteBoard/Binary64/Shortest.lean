/-
# Shortest decimal digits

The text of a finite number uses the fewest decimal digits that read back as the
same number, and among those the digits nearest to its value. Digits are searched
grid by grid: on the grid of numerals with one digit, then two, and so on, the two
neighbours of the value are tested against the interval of reals that round to it.
-/

import QuoteBoard.Binary64.Rounding

namespace QuoteBoard.Binary64

/-- A positive decimal numeral `digits · 10 ^ scale`. -/
structure Decimal where
  digits : Nat
  scale : Int
  deriving DecidableEq

/-- The reals that round to a positive finite number: the two ends as numerators over
one denominator, the value between them, and whether the ends belong. -/
structure Interval where
  low : Nat
  value : Nat
  high : Nat
  den : Nat
  closed : Bool

/-- The interval of a positive finite number. Below a power of two the numbers lie
twice as dense, so there the lower end is half as far. -/
def roundingInterval (x : Binary64) : Interval :=
  let m := x.significand
  let below := if x.fractionField = 0 ∧ 1 < x.exponentField then 1 else 2
  let at4 (k : Nat) : Nat × Nat := scaleDown k 4 (-x.exponent)
  { low := (at4 (4 * m - below)).1
    value := (at4 (4 * m)).1
    high := (at4 (4 * m + 2)).1
    den := (at4 (4 * m)).2
    closed := m % 2 == 0 }

/-- Whether the numeral `k · 10 ^ scale` lies in an interval. -/
def Interval.holds (i : Interval) (k : Nat) (scale : Int) : Bool :=
  let (n, d) := match scale with
    | .ofNat e => (k * Nat.pow 10 e * i.den, 1)
    | .negSucc e => (k * i.den, Nat.pow 10 (e + 1))
  if i.closed then i.low * d ≤ n && n ≤ i.high * d else i.low * d < n && n < i.high * d

/-- The value of an interval on the grid of multiples of `10 ^ scale`: the neighbour
below, and twice the remainder against the width of the grid. -/
def Interval.neighbour (i : Interval) (scale : Int) : Nat × Ordering :=
  let (n, d) := match scale with
    | .ofNat e => (i.value, i.den * Nat.pow 10 e)
    | .negSucc e => (i.value * Nat.pow 10 (e + 1), i.den)
  (n / d, compare (2 * (n % d)) d)

/-- A numeral of the grid that reads back, the nearer of two; a tie goes to the even one. -/
def Interval.onGrid? (i : Interval) (scale : Int) : Option Nat :=
  let (k, half) := i.neighbour scale
  let below := i.holds k scale && k != 0
  let above := i.holds (k + 1) scale
  if below && above then
    some (match half with
      | .lt => k
      | .gt => k + 1
      | .eq => k + k % 2)
  else if below then some k
  else if above then some (k + 1)
  else none

/-- The exponent of the largest power of ten that is at most `num / den`. -/
def floorLog10 (num den : Nat) : Int :=
  if den ≤ num then (decimalLength (num / den) : Int) - 1
  else
    -- the quotient den / num has one digit more than there are zeros to skip,
    -- unless num divides into a power of ten exactly
    let zeros := decimalLength ((den + num - 1) / num)
    if num * Nat.pow 10 (zeros - 1) < den then -(zeros : Int) else -((zeros : Int) - 1)

/-- The first grid, of those still to try, that holds a numeral reading back. -/
def shortestFrom (i : Interval) (lead : Int) (length : Nat) : Nat → Decimal
  | 0 => ⟨(i.neighbour (lead - length + 1)).1, lead - length + 1⟩
  | more + 1 =>
    let scale := lead - length + 1
    match i.onGrid? scale with
    | some k => ⟨k, scale⟩
    | none => shortestFrom i lead (length + 1) more

/-- Take the zeros off the end of a numeral. -/
def Decimal.normalize (d : Decimal) : Decimal :=
  let zeros := ((Nat.toDigits 10 d.digits).reverse.takeWhile (· == '0')).length
  ⟨d.digits / Nat.pow 10 zeros, d.scale + zeros⟩

/-- The shortest numeral of a positive finite number. Seventeen digits always suffice. -/
def shortest (x : Binary64) : Decimal :=
  let i := x.roundingInterval
  (shortestFrom i (floorLog10 i.value i.den) 1 17).normalize

end QuoteBoard.Binary64
