/-
# Scalars of loosely typed documents

The feed and the backend write the same thing now as a number and now as a string.
A scalar is read in two ways: as text, for names and codes that are compared by
spelling, and as a price. Both sides of a comparison go through the same reading, so
a code sent as `501.0` meets the same code sent as `501`.
-/

import QuoteBoard.Text.Blank
import QuoteBoard.Binary64.Shortest
import QuoteBoard.Binary64.Numeral
import QuoteBoard.Json.Document

namespace QuoteBoard

/-- How numerals are laid out: the exponents of the leading digit that are written with
a plain point, from the first on and below the second. -/
structure NumeralLayout where
  firstPlain : Int
  pastPlain : Int

namespace NumeralLayout

/-- Digits with a point before the place of the last `-scale` of them, and at least one
digit on each side of it. -/
def withPoint (d : Binary64.Decimal) : String :=
  let digits := Nat.repr d.digits
  match d.scale with
  | .ofNat e => digits ++ String.ofList (List.replicate e '0') ++ ".0"
  | .negSucc e =>
    let places := e + 1
    let padded := List.replicate (places + 1 - digits.length) '0' ++ digits.toList
    let whole := padded.length - places
    String.ofList (padded.take whole ++ '.' :: padded.drop whole)

/-- Digits with a point after the first, unless it is the only one, and an exponent with its
sign. -/
def withExponent (d : Binary64.Decimal) (lead : Int) : String :=
  let mantissa := match (Nat.repr d.digits).toList with
    | first :: next :: rest => String.ofList (first :: '.' :: next :: rest)
    | digits => String.ofList digits
  mantissa ++ "e" ++ (if lead < 0 then "-" else "+") ++ Nat.repr lead.natAbs

/-- The text of a finite number. -/
def write (layout : NumeralLayout) (x : Binary64) : String :=
  let sign := if x.isNegative then "-" else ""
  if x.isZero then sign ++ "0.0"
  else
    let d := x.shortest
    let lead : Int := d.scale + (Nat.repr d.digits).length - 1
    sign ++ (if layout.firstPlain ≤ lead ∧ lead < layout.pastPlain then withPoint d
      else withExponent d lead)

end NumeralLayout

namespace Json

/-- Numerals have a plain point from a hundred-thousandth up to sixteen digits before it. -/
def numeralLayout : NumeralLayout := ⟨-5, 16⟩

/-- Whole numbers of a size below this are written without a fraction. -/
def wholeLimit : Nat := 1000000000000000

/-- The text of a number. A binary number that is whole and below the limit is written as
the integer that it is equal to. -/
def Number.text : Number → String
  | .integer i => toString i
  | .binary x =>
    match x.toInt? with
    | some i => if i.natAbs < wholeLimit then toString i else numeralLayout.write x
    | none => numeralLayout.write x

/-- A scalar as text: strings are trimmed, and what is blank, null or has parts is no scalar. -/
def Value.scalarText? : Value → Option String
  | .text s => Text.nonBlank s
  | .number n => some n.text
  | .boolean b => some (if b then "true" else "false")
  | .null | .array _ | .object _ => none

/-- A scalar as a price: a number, or a string that spells one, if it is finite. -/
def Value.price? (v : Value) : Option Binary64 :=
  let x? := match v with
    | .number n => some n.toBinary64
    | .text s => Binary64.ofText? (Text.trim s)
    | _ => none
  x?.filter Binary64.isFinite

end Json

end QuoteBoard
