/-
# Digits

Digits of bases up to sixteen, their letters in either case, and the number that a row
of digits spells, the first of them the heaviest.
-/

namespace QuoteBoard.Text

/-- The value of a hexadecimal digit. -/
def hexValue? (c : Char) : Option Nat :=
  if c.isDigit then some (c.toNat - '0'.toNat)
  else if 'a' ≤ c ∧ c ≤ 'f' then some (c.toNat - 'a'.toNat + 10)
  else if 'A' ≤ c ∧ c ≤ 'F' then some (c.toNat - 'A'.toNat + 10)
  else none

/-- The character is a digit of a base. -/
def isDigitOf (base : Nat) (c : Char) : Bool := (hexValue? c).any (· < base)

/-- The number that digits of a base spell, if that is what they all are. -/
def numberIn? (base : Nat) (cs : List Char) : Option Nat :=
  if cs.all (isDigitOf base) then
    some (cs.foldl (fun n c => base * n + (hexValue? c).getD 0) 0)
  else none

end QuoteBoard.Text
