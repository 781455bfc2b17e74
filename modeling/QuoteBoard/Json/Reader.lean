/-
# Reading JSON text

The grammar of RFC 8259, strictly: blanks are space, tab, line feed and carriage
return alone, control characters must be escaped inside strings, and nothing but
blanks may follow the document. The reader accepts exactly the grammar; what a
document stands for is decided by `Document.value?`.
-/

import QuoteBoard.Binary64.Numeral
import QuoteBoard.Json.Document
import QuoteBoard.Text.Digit

namespace QuoteBoard.Json

open QuoteBoard.Binary64 (splitDigits splitSign natOfDigits)

/-- The four characters that may stand between tokens. -/
def isGap (c : Char) : Bool := c == ' ' || c == '\t' || c == '\n' || c == '\r'

/-- Leave out blanks in front. -/
def skipGaps (cs : List Char) : List Char := cs.dropWhile isGap

/-- The number that four hexadecimal digits spell. -/
def hexQuad? (a b c d : Char) : Option Nat := Text.numberIn? 16 [a, b, c, d]

/-- A piece of a string: a character, or a code unit that an escape names and that is half
of a surrogate pair. -/
inductive Piece where
  | char (c : Char)
  | surrogate (unit : Nat)

/-- The character that a single escape letter stands for. -/
def escapeLetter? : Char → Option Char
  | '"' => some '"'
  | '\\' => some '\\'
  | '/' => some '/'
  | 'b' => some '\x08'
  | 'f' => some '\x0C'
  | 'n' => some '\n'
  | 'r' => some '\r'
  | 't' => some '\t'
  | _ => none

/-- The piece that a code unit stands for. -/
def Piece.ofUnit (unit : Nat) : Piece :=
  if 0xD800 ≤ unit ∧ unit ≤ 0xDFFF then .surrogate unit else .char (Char.ofNat unit)

/-- The pieces of a string after its opening quote, up to the closing one. -/
def pieces? : List Char → List Piece → Option (List Piece × List Char)
  | [], _ => none
  | '"' :: rest, done => some (done.reverse, rest)
  | '\\' :: 'u' :: a :: b :: c :: d :: rest, done => do
    let unit ← hexQuad? a b c d
    pieces? rest (.ofUnit unit :: done)
  | '\\' :: c :: rest, done => do
    let c ← escapeLetter? c
    pieces? rest (.char c :: done)
  | c :: rest, done => if c.toNat < 0x20 then none else pieces? rest (.char c :: done)

/-- The text of a list of pieces: a leading surrogate with the trailing one right after it is
one character, any other surrogate spoils the text. -/
def join? : List Piece → Option (List Char)
  | [] => some []
  | .char c :: rest => (join? rest).map (c :: ·)
  | .surrogate high :: .surrogate low :: rest =>
    if high ≤ 0xDBFF ∧ 0xDC00 ≤ low then
      (join? rest).map (Char.ofNat (0x10000 + (high - 0xD800) * 0x400 + (low - 0xDC00)) :: ·)
    else none
  | .surrogate _ :: _ => none

/-- A string after its opening quote. -/
def string? (cs : List Char) : Option (Spelled × List Char) :=
  (pieces? cs []).map fun (ps, rest) => ((join? ps).map String.ofList, rest)

/-- A fraction, if a point stands in front: its digits and the rest. -/
def fraction? : List Char → Option (List Char × List Char)
  | '.' :: rest =>
    let (digits, rest) := splitDigits rest
    if digits = [] then none else some (digits, rest)
  | rest => some ([], rest)

/-- An exponent, if its letter stands in front: whether there is one, its value and the rest. -/
def exponent? : List Char → Option (Bool × Int × List Char)
  | c :: rest =>
    if c = 'e' ∨ c = 'E' then
      let (negative, rest) := splitSign rest
      let (digits, rest) := splitDigits rest
      if digits = [] then none
      else
        let e : Int := natOfDigits digits
        some (true, if negative then -e else e, rest)
    else some (false, 0, c :: rest)
  | [] => some (false, 0, [])

/-- A numeral: no plus sign, no superfluous zero in front, digits on both sides of a point. -/
def numeral? (cs : List Char) : Option (Numeral × List Char) := do
  let (negative, cs) := match cs with
    | '-' :: rest => (true, rest)
    | rest => (false, rest)
  let (whole, cs) := splitDigits cs
  match whole with
  | [] => none
  | '0' :: _ :: _ => none
  | whole =>
    let (fraction, cs) ← fraction? cs
    let (hasExponent, e, cs) ← exponent? cs
    return ({ negative, digits := natOfDigits (whole ++ fraction), scale := e - fraction.length
              plain := fraction.isEmpty && !hasExponent }, cs)

/-- The rest of a text after a word in front. -/
def afterWord? (word : String) (cs : List Char) : Option (List Char) :=
  if word.toList.isPrefixOf cs then some (cs.drop word.length) else none

mutual

/-- A document in front of the text, blanks before it left out. Each call is on a text shorter
than the one before, so fuel beyond the length of the text is never used up. -/
def document? : Nat → List Char → Option (Document × List Char)
  | 0, _ => none
  | fuel + 1, cs =>
    match skipGaps cs with
    | '{' :: rest =>
      match skipGaps rest with
      | '}' :: rest => some (.object [], rest)
      | rest => (members? fuel rest).map fun (ms, rest) => (.object ms, rest)
    | '[' :: rest =>
      match skipGaps rest with
      | ']' :: rest => some (.array [], rest)
      | rest => (items? fuel rest).map fun (ds, rest) => (.array ds, rest)
    | '"' :: rest => (string? rest).map fun (s, rest) => (.text s, rest)
    | 'n' :: rest => (afterWord? "ull" rest).map (.null, ·)
    | 't' :: rest => (afterWord? "rue" rest).map (.boolean true, ·)
    | 'f' :: rest => (afterWord? "alse" rest).map (.boolean false, ·)
    | cs => (numeral? cs).map fun (n, rest) => (.number n, rest)

/-- One or more items up to the closing bracket. -/
def items? : Nat → List Char → Option (List Document × List Char)
  | 0, _ => none
  | fuel + 1, cs => do
    let (d, rest) ← document? fuel cs
    match skipGaps rest with
    | ',' :: rest => (items? fuel rest).map fun (ds, rest) => (d :: ds, rest)
    | ']' :: rest => some ([d], rest)
    | _ => none

/-- One or more members up to the closing brace. -/
def members? : Nat → List Char → Option (List (Spelled × Document) × List Char)
  | 0, _ => none
  | fuel + 1, cs => do
    match skipGaps cs with
    | '"' :: rest =>
      let (name, rest) ← string? rest
      match skipGaps rest with
      | ':' :: rest =>
        let (d, rest) ← document? fuel rest
        match skipGaps rest with
        | ',' :: rest => (members? fuel rest).map fun (ms, rest) => ((name, d) :: ms, rest)
        | '}' :: rest => some ([(name, d)], rest)
        | _ => none
      | _ => none
    | _ => none

end

/-- The document that a text spells, with blanks around it. -/
def Document.ofText? (s : String) : Option Document := do
  let cs := s.toList
  let (d, rest) ← document? (2 * cs.length + 1) cs
  if (skipGaps rest).isEmpty then some d else none

/-- The value that a text stands for. -/
def Value.ofText? (s : String) : Option Value := do
  let d ← Document.ofText? s
  d.value? maxDepth

end QuoteBoard.Json
