/-
# Percent signs in addresses

An address holds a part of ASCII only. A character outside that part is written as the
bytes of its UTF-8 form, each as a percent sign with two digits. The path of an
address and what stands after its question mark keep different characters, and in the
pairs that stand there a space is a plus sign.
-/

import QuoteBoard.Text.Digit

namespace QuoteBoard.Text

/-- A byte as a percent sign with two digits in upper-case hexadecimal. -/
def percentByte (b : UInt8) : List Char :=
  let digit (n : Nat) : Char := (Nat.digitChar n).toUpper
  ['%', digit (b.toNat / 16), digit (b.toNat % 16)]

/-- A character as the bytes of its UTF-8 form. -/
def percentChar (c : Char) : List Char := (String.utf8EncodeChar c).flatMap percentByte

/-- Characters that the pairs of an address keep. -/
def isPlainInPair (c : Char) : Bool :=
  c.isAlphanum || c == '*' || c == '-' || c == '.' || c == '_'

/-- A name or a value in a pair of an address. -/
def pairText (s : String) : String :=
  String.ofList (s.toList.flatMap fun c =>
    if isPlainInPair c then [c] else if c = ' ' then ['+'] else percentChar c)

/-- The pairs of an address. -/
def pairsText (pairs : List (String × String)) : String :=
  "&".intercalate (pairs.map fun (name, value) => pairText name ++ "=" ++ pairText value)

/-- Write the characters of a text that are not kept as the bytes of their UTF-8 form. -/
def percentText (isKept : Char → Bool) (s : String) : String :=
  String.ofList (s.toList.flatMap fun c => if isKept c then [c] else percentChar c)

/-- Visible ASCII without some marks. -/
def isPlainBut (marks : List Char) (c : Char) : Bool := '!' ≤ c && c ≤ '~' && !marks.contains c

/-- A part of the path of an address. -/
def pathText : String → String :=
  percentText (isPlainBut ['"', '#', '<', '>', '?', '\x60', '\x7b', '\x7d'])

/-- What stands after the question mark of an address. -/
def queryText : String → String := percentText (isPlainBut ['"', '#', '<', '>', '\''])

/-- The bytes of a text in which a percent sign with two digits stands for a byte. -/
def percentBytes : List Char → List UInt8
  | [] => []
  | '%' :: high :: low :: rest =>
    match hexValue? high, hexValue? low with
    | some high, some low => UInt8.ofNat (16 * high + low) :: percentBytes rest
    | _, _ => UInt8.ofNat '%'.toNat :: percentBytes (high :: low :: rest)
  | c :: rest => String.utf8EncodeChar c ++ percentBytes rest

/-- The text that remains when percent signs with two digits are replaced by bytes, if the bytes are
UTF-8. -/
def percentDecoded? (cs : List Char) : Option String :=
  String.fromUTF8? ⟨(percentBytes cs).toArray⟩

end QuoteBoard.Text
