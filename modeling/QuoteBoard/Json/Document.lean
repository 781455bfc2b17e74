/-
# JSON documents

A document is the tree that a text spells, with everything the spelling says and no
more: object members in their order, repeated names included, numerals as digits and
a scale, and strings whose escapes may name half of a surrogate pair. Two readings
build on it. `Value` is the strict one, in which every part must stand for something;
a reader of known members takes only the parts it asks for and leaves the rest.
-/

import QuoteBoard.Text.Map
import QuoteBoard.Binary64.Rounding

namespace QuoteBoard.Json

/-- A numeral `± digits · 10 ^ scale` as written. -/
structure Numeral where
  negative : Bool
  digits : Nat
  scale : Int
  /-- Neither a fraction nor an exponent is written. -/
  plain : Bool
  deriving DecidableEq

/-- The text of a string, or `none` when an escape names a surrogate without its partner. -/
abbrev Spelled := Option String

/-- The tree that a text spells. -/
inductive Document where
  | null
  | boolean (b : Bool)
  | number (n : Numeral)
  | text (s : Spelled)
  | array (items : List Document)
  | object (members : List (Spelled × Document))

/-- The greatest integer that a plain numeral is read as, and the least. -/
def largestInteger : Int := 18446744073709551615

@[inherit_doc largestInteger]
def smallestInteger : Int := -9223372036854775808

/-- A number: an integer that fits sixty-four bits, or a finite binary number. -/
inductive Number where
  | integer (i : Int)
  | binary (x : Binary64)
  deriving DecidableEq

/-- The nearest binary number. -/
def Number.toBinary64 : Number → Binary64
  | .integer i => .ofInt i
  | .binary x => x

/-- The number of a numeral: a plain one that fits is an integer, minus zero is not an
integer, and one beyond the binary format is no number. -/
def Numeral.value? (n : Numeral) : Option Number :=
  let i : Int := if n.negative then -(n.digits : Int) else n.digits
  if n.plain ∧ ¬(n.negative ∧ n.digits = 0) ∧ smallestInteger ≤ i ∧ i ≤ largestInteger then
    some (.integer i)
  else
    let x := Binary64.ofDecimal n.negative n.digits n.scale
    if x.isFinite then some (.binary x) else none

/-- A value: what a document stands for. Names of an object's fields are distinct and ascend. -/
inductive Value where
  | null
  | boolean (b : Bool)
  | number (n : Number)
  | text (s : String)
  | array (items : List Value)
  | object (fields : List (String × Value))

/-- The fields of an object from its members in order: of a repeated name the last stays. -/
def Value.ofMembers (members : List (String × Value)) : Value :=
  .object (members.foldl (fun fields m => TextMap.insertEntry m.1 m.2 fields) [])

mutual

/-- The value of a document in which at most `room` arrays and objects are open at a time. -/
def Document.value? (room : Nat) : Document → Option Value
  | .null => some .null
  | .boolean b => some (.boolean b)
  | .number n => n.value?.map .number
  | .text s => s.map .text
  | .array items =>
    match room with
    | 0 => none
    | room + 1 => (itemValues? room items).map .array
  | .object members =>
    match room with
    | 0 => none
    | room + 1 => (memberValues? room members).map Value.ofMembers

/-- The values of an array's items. -/
def itemValues? (room : Nat) : List Document → Option (List Value)
  | [] => some []
  | d :: rest => do
    let v ← d.value? room
    let vs ← itemValues? room rest
    return v :: vs

/-- The names and values of an object's members. -/
def memberValues? (room : Nat) : List (Spelled × Document) → Option (List (String × Value))
  | [] => some []
  | (name, d) :: rest => do
    let name ← name
    let v ← d.value? room
    let vs ← memberValues? room rest
    return (name, v) :: vs

end

/-- The number of arrays and objects that may be open at a time. -/
def maxDepth : Nat := 127

/-- The field of an object. -/
def field? (fields : List (String × Value)) (name : String) : Option Value := fields.lookup name

end QuoteBoard.Json
