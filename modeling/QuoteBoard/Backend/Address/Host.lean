/-
# Hosts

The host of an address is a name, a number of thirty-two bits, or a number of a hundred
and twenty-eight bits between brackets. A text whose last part is numeric is meant as a
number, and is no host unless it is written as one.
-/

import QuoteBoard.Text.Digit
import QuoteBoard.Text.Percent
import QuoteBoard.Text.Pieces

namespace QuoteBoard.Backend.Host

open QuoteBoard.Text (isDigitOf numberIn? pieces)

/-! ## Numbers of thirty-two bits -/

/-- The number that a part between dots spells: a decimal one, an octal one after a zero, or a
hexadecimal one after `0x`. -/
def part? : List Char → Option Nat
  | [] => none
  | '0' :: 'x' :: digits => numberIn? 16 digits
  | '0' :: 'X' :: digits => numberIn? 16 digits
  | '0' :: digits => numberIn? 8 digits
  | digits => numberIn? 10 digits

/-- The parts of a text between dots; a dot may stand at the end. -/
def dotted (cs : List Char) : List (List Char) :=
  let parts := pieces (· == '.') cs
  if parts.getLast? = some [] then parts.dropLast else parts

/-- The last part is numeric. -/
def endsInNumber (parts : List (List Char)) : Bool :=
  parts.getLast?.any fun last =>
    (part? last).isSome || (!last.isEmpty && last.all (isDigitOf 10))

/-- What the last of some parts must be below: it stands for all the bytes that the parts before it
leave. -/
def lastPartBound : Nat → Nat
  | 1 => 4294967296
  | 2 => 16777216
  | 3 => 65536
  | _ => 256

/-- The parts spell a number of thirty-two bits: four parts at most, and each before the last one
is a byte. -/
def areNumber (parts : List (List Char)) : Bool :=
  match parts.mapM part? with
  | none => false
  | some numbers =>
    numbers.length ≤ 4 && numbers.dropLast.all (· < 256) &&
      numbers.getLast?.any (· < lastPartBound numbers.length)

/-! ## Numbers of a hundred and twenty-eight bits -/

/-- One to four hexadecimal digits. -/
def isGroup (cs : List Char) : Bool := !cs.isEmpty && cs.length ≤ 4 && cs.all (isDigitOf 16)

/-- A byte in decimal, without a zero in front. -/
def isByte : List Char → Bool
  | [] => false
  | ['0'] => true
  | '0' :: _ => false
  | digits => (numberIn? 10 digits).any (· < 256)

/-- Four bytes with dots between them. -/
def isQuad (cs : List Char) : Bool :=
  let parts := pieces (· == '.') cs
  parts.length = 4 && parts.all isByte

/-- How many groups some pieces stand for; the last piece may be four bytes, which are two. -/
def groups? : List (List Char) → Option Nat
  | [] => some 0
  | [last] => if isGroup last then some 1 else if isQuad last then some 2 else none
  | piece :: rest => if isGroup piece then (groups? rest).map (· + 1) else none

/-- The pieces behind a gap, the first of which is empty if the gap stands in front of all pieces;
a gap that ends the text leaves one empty piece behind. -/
def behindGap? (inFront : Bool) (rest : List (List Char)) : Option (List (List Char)) :=
  match inFront, rest with
  | true, [] :: [[]] => some []
  | true, [] :: piece :: others => some (piece :: others)
  | true, _ => none
  | false, [[]] => some []
  | false, [] => none
  | false, pieces => some pieces

/-- A text between brackets spells eight groups with colons between them, or fewer with a gap of two
colons for those that are zero. -/
def isGrouped (cs : List Char) : Bool :=
  match (pieces (· == ':') cs).span fun piece => !piece.isEmpty with
  | (all, []) => groups? all = some 8
  | (front, _ :: rest) =>
    front.all isGroup &&
      ((behindGap? front.isEmpty rest).bind groups?).any (front.length + · < 8)

/-! ## Names -/

/-- Visible characters that no name of a host holds. -/
def marks : List Char := ['#', '/', ':', '<', '>', '?', '@', '[', '\\', ']', '^', '|', '%']

/-- Characters of a name of a host. Those beyond ASCII are taken as they are. -/
def isNameChar (c : Char) : Bool := ' ' < c && c != '\x7f' && !marks.contains c

/-- A text without brackets is a host: a name, or a number if its last part is numeric. -/
def isNamed (cs : List Char) : Bool :=
  !cs.isEmpty && cs.all isNameChar &&
    (let parts := dotted cs
     !endsInNumber parts || areNumber parts)

/-- A text is a host. Outside brackets a percent sign with two digits stands for a byte. -/
def isHost : List Char → Bool
  | '[' :: rest => rest.getLast? = some ']' && isGrouped rest.dropLast
  | cs => (Text.percentDecoded? cs).any fun s => isNamed s.toList

end QuoteBoard.Backend.Host
