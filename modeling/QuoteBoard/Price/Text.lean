/-
# The text of a price

A price is shown with two decimals. Its exact value becomes a decimal number, which is rounded to
hundredths, a half away from zero, and written with two decimals. A price too large for a decimal
number is written from its bits; it has no decimals left to round. Zero is shown without a sign,
and what is not a finite number is shown as a dash.
-/

import QuoteBoard.Binary64.Rounding
import QuoteBoard.Price.Decimal

namespace QuoteBoard

/-- What a cell shows while no price is known. -/
def placeholder : String := "-"

namespace Price

/-- The text of a finite number with two decimals, of its exact value; a half goes to the even
neighbour. -/
def writeExact (x : Binary64) : String :=
  (if x.isNegative then "-" else "") ++
    withPoint (Binary64.roundHalfEven (100 * x.magnitude.1) x.magnitude.2)

/-- A price without the sign of zero. -/
def unsignedZero (x : Binary64) : Binary64 := if x.isZero then Binary64.zero false else x

/-- The text of a price by way of a library of decimal numbers. -/
def textVia (library : DecimalLibrary) (x : Binary64) : String :=
  if x.isFinite then
    match library.retain? (unsignedZero x) with
    | some exact => library.write (library.round exact)
    | none => writeExact (unsignedZero x)
  else placeholder

/-- The text of a price. -/
def text (x : Binary64) : String := textVia cuttingLibrary x

end Price

end QuoteBoard
