/-
# Texts shown between quotes

A message that reports a text shows it between double quotes, so that blanks and
characters without a visible form can be told apart. The quote, the backslash and
four control characters are written with a backslash, and every other character
without a visible form by its code point.
-/

import QuoteBoard.Text.Invisible

namespace QuoteBoard.Text

/-- The digits of a code point, in lower-case hexadecimal. -/
def codePoint (c : Char) : String := String.ofList (Nat.toDigits 16 c.toNat)

/-- What stands for a character between quotes. -/
def shownChar (c : Char) : String :=
  match c with
  | '"' => "\\\""
  | '\\' => "\\\\"
  | '\n' => "\\n"
  | '\t' => "\\t"
  | '\r' => "\\r"
  | '\x00' => "\\0"
  | c => if isInvisible c then "\\u\x7b" ++ codePoint c ++ "\x7d" else c.toString

/-- A text between quotes. -/
def shown (s : String) : String :=
  "\"" ++ String.join (s.toList.map shownChar) ++ "\""

end QuoteBoard.Text
