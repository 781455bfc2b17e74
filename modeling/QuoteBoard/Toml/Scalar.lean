/-
# TOML scalars

Strings in their four forms, numbers in four bases, and dates and times, as TOML 1.0
spells them. Each reader takes the longest scalar in front of a text and leaves the rest.
-/

import QuoteBoard.Binary64.Numeral
import QuoteBoard.Json.Reader
import QuoteBoard.Text.Digit
import QuoteBoard.Toml.Value

namespace QuoteBoard.Toml

open QuoteBoard.Binary64 (splitSign natOfDigits digitValue)
open QuoteBoard.Json (afterWord?)
open QuoteBoard.Text (isDigitOf numberIn?)

/-- Space or tab. -/
def isGap (c : Char) : Bool := c == ' ' || c == '\t'

/-- Leave out spaces and tabs in front. -/
def skipGaps (cs : List Char) : List Char := cs.dropWhile isGap

/-- The rest after a line end in front. -/
def afterNewline? : List Char → Option (List Char)
  | '\n' :: rest => some rest
  | '\r' :: '\n' :: rest => some rest
  | _ => none

/-- A tab, or a character that is no control character. -/
def isPlain (c : Char) : Bool := c == '\t' || (0x20 ≤ c.toNat && c.toNat != 0x7F)

/-- Leave out spaces, tabs and line ends in front. -/
def skipLines : Nat → List Char → List Char
  | 0, cs => cs
  | fuel + 1, cs =>
    match afterNewline? (skipGaps cs) with
    | some rest => skipLines fuel rest
    | none => skipGaps cs

/-- The character of a code point that is no surrogate. -/
def scalarChar? (n : Nat) : Option Char :=
  if n < 0xD800 ∨ (0xDFFF < n ∧ n < 0x110000) then some (Char.ofNat n) else none

/-- An escape after its backslash: the character, and the rest. -/
def escape? : List Char → Option (Char × List Char)
  | 'u' :: rest => do
    if rest.length < 4 then none
    let c ← scalarChar? (← numberIn? 16 (rest.take 4))
    return (c, rest.drop 4)
  | 'U' :: rest => do
    if rest.length < 8 then none
    let c ← scalarChar? (← numberIn? 16 (rest.take 8))
    return (c, rest.drop 8)
  | 'b' :: rest => some ('\x08', rest)
  | 't' :: rest => some ('\t', rest)
  | 'n' :: rest => some ('\n', rest)
  | 'f' :: rest => some ('\x0C', rest)
  | 'r' :: rest => some ('\r', rest)
  | '"' :: rest => some ('"', rest)
  | '\\' :: rest => some ('\\', rest)
  | _ => none

/-- A string on one line with escapes, after its opening quote. -/
def basicString? : Nat → List Char → List Char → Option (String × List Char)
  | 0, _, _ => none
  | _ + 1, '"' :: rest, done => some (String.ofList done.reverse, rest)
  | fuel + 1, '\\' :: rest, done => do
    let (c, rest) ← escape? rest
    basicString? fuel rest (c :: done)
  | fuel + 1, c :: rest, done => if isPlain c then basicString? fuel rest (c :: done) else none
  | _ + 1, [], _ => none

/-- A string on one line without escapes, after its opening quote. -/
def literalString? (cs : List Char) : Option (String × List Char) :=
  let inside := cs.takeWhile fun c => isPlain c && c != '\''
  match cs.drop inside.length with
  | '\'' :: rest => some (String.ofList inside, rest)
  | _ => none

/-- The end of a string over several lines: three quotes, before which one or two more may stand
as a part of the string. -/
def longEnd? (quote : Char) (cs : List Char) : Option (List Char × List Char) :=
  let run := (cs.takeWhile (· == quote)).length
  if 3 ≤ run then
    let extra := min (run - 3) 2
    some (List.replicate extra quote, cs.drop (extra + 3))
  else none

/-- A string over several lines with escapes, after its three opening quotes. A backslash at the
end of a line takes away the line end and all blanks after it. -/
def longString? : Nat → List Char → List Char → Option (String × List Char)
  | 0, _, _ => none
  | fuel + 1, cs, done =>
    match longEnd? '"' cs with
    | some (extra, rest) => some (String.ofList (done.reverse ++ extra), rest)
    | none =>
      match afterNewline? cs with
      | some rest => longString? fuel rest ('\n' :: done)
      | none =>
        match cs with
        | '\\' :: rest =>
          match afterNewline? (skipGaps rest) with
          | some rest => longString? fuel (skipLines rest.length rest) done
          | none => do
            let (c, rest) ← escape? rest
            longString? fuel rest (c :: done)
        | c :: rest => if isPlain c then longString? fuel rest (c :: done) else none
        | [] => none

/-- A string over several lines without escapes, after its three opening quotes. -/
def longLiteral? : Nat → List Char → List Char → Option (String × List Char)
  | 0, _, _ => none
  | fuel + 1, cs, done =>
    match longEnd? '\'' cs with
    | some (extra, rest) => some (String.ofList (done.reverse ++ extra), rest)
    | none =>
      match afterNewline? cs with
      | some rest => longLiteral? fuel rest ('\n' :: done)
      | none =>
        match cs with
        | c :: rest => if isPlain c then longLiteral? fuel rest (c :: done) else none
        | [] => none

/-- A line end right after three opening quotes is not part of the string. -/
def dropFirstNewline (cs : List Char) : List Char := (afterNewline? cs).getD cs

/-- A string in any of its forms. -/
def string? : List Char → Option (String × List Char)
  | '"' :: '"' :: '"' :: rest => longString? (rest.length + 1) (dropFirstNewline rest) []
  | '\'' :: '\'' :: '\'' :: rest => longLiteral? (rest.length + 1) (dropFirstNewline rest) []
  | '"' :: rest => basicString? (rest.length + 1) rest []
  | '\'' :: rest => literalString? rest
  | _ => none

/-- More digits of a class, single underscores between them left out. -/
def moreDigits (isDigit : Char → Bool) : List Char → List Char × List Char
  | '_' :: c :: rest =>
    if isDigit c then
      let (digits, rest) := moreDigits isDigit rest
      (c :: digits, rest)
    else ([], '_' :: c :: rest)
  | c :: rest =>
    if isDigit c then
      let (digits, rest) := moreDigits isDigit rest
      (c :: digits, rest)
    else ([], c :: rest)
  | [] => ([], [])

/-- One digit or more of a class, single underscores between them left out. -/
def digits? (isDigit : Char → Bool) : List Char → Option (List Char × List Char)
  | c :: rest =>
    if isDigit c then
      let (digits, rest) := moreDigits isDigit rest
      some (c :: digits, rest)
    else none
  | [] => none

/-- The digits of a whole number: a zero stands alone. -/
def wholeDigits? : List Char → Option (List Char × List Char)
  | '0' :: rest => some (['0'], rest)
  | cs => digits? Char.isDigit cs

/-- An integer, if it fits sixty-four bits. -/
def integer? (i : Int) : Option Value :=
  if -9223372036854775808 ≤ i ∧ i ≤ 9223372036854775807 then some (.integer i) else none

/-- An integer in another base, after its two letters. -/
def based? (base : Nat) (cs : List Char) : Option (Value × List Char) := do
  let (digits, rest) ← digits? (isDigitOf base) cs
  let n ← numberIn? base digits
  return (← integer? n, rest)

/-- The exponent of a float, after its letter. -/
def exponent? (cs : List Char) : Option (Int × List Char) := do
  let (negative, cs) := splitSign cs
  let (digits, rest) ← digits? Char.isDigit cs
  let e : Int := natOfDigits digits
  return (if negative then -e else e, rest)

/-- A float from its parts, unless it is above the greatest finite number. -/
def float? (negative : Bool) (digits : List Char) (scale : Int) : Option Value :=
  let x := Binary64.ofDecimal negative (natOfDigits digits) scale
  if x = Binary64.infinity false then none else some (.float x)

/-- A number in base ten, after its sign. -/
def decimal? (negative : Bool) (cs : List Char) : Option (Value × List Char) := do
  let (whole, rest) ← wholeDigits? cs
  match rest with
  | '.' :: after =>
    let (fraction, rest) ← digits? Char.isDigit after
    match rest with
    | 'e' :: after | 'E' :: after =>
      let (e, rest) ← exponent? after
      return (← float? negative (whole ++ fraction) (e - fraction.length), rest)
    | rest => return (← float? negative (whole ++ fraction) (-(fraction.length : Int)), rest)
  | 'e' :: after | 'E' :: after =>
    let (e, rest) ← exponent? after
    return (← float? negative whole e, rest)
  | rest =>
    let n : Int := natOfDigits whole
    return (← integer? (if negative then -n else n), rest)

/-- A number: infinity, an undefined number, or digits, with a sign if it has one; other bases
have none. -/
def number? : List Char → Option (Value × List Char)
  | '0' :: 'x' :: rest => based? 16 rest
  | '0' :: 'o' :: rest => based? 8 rest
  | '0' :: 'b' :: rest => based? 2 rest
  | cs =>
    let (negative, cs) := splitSign cs
    match afterWord? "inf" cs, afterWord? "nan" cs with
    | some rest, _ => some (.float (.infinity negative), rest)
    | _, some rest => some (.float .nan, rest)
    | none, none => decimal? negative cs

/-- A given number of decimal digits whose value lies in a range. -/
def field? (count low high : Nat) (cs : List Char) : Option (Nat × List Char) :=
  let digits := cs.take count
  let n := natOfDigits digits
  if digits.length = count ∧ digits.all Char.isDigit ∧ low ≤ n ∧ n ≤ high then
    some (n, cs.drop count)
  else none

/-- The rest after a character in front. -/
def after? (c : Char) : List Char → Option (List Char)
  | d :: rest => if c = d then some rest else none
  | [] => none

/-- The days of a month. -/
def daysIn (year month : Nat) : Nat :=
  if month = 2 then
    if year % 4 = 0 ∧ (year % 100 ≠ 0 ∨ year % 400 = 0) then 29 else 28
  else if month = 4 ∨ month = 6 ∨ month = 9 ∨ month = 11 then 30 else 31

/-- The rest after a date in front. -/
def afterDate? (cs : List Char) : Option (List Char) := do
  let (year, cs) ← field? 4 0 9999 cs
  let (month, cs) ← field? 2 1 12 (← after? '-' cs)
  let (_, cs) ← field? 2 1 (daysIn year month) (← after? '-' cs)
  return cs

/-- The rest after a time of day in front. The sixtieth second is a leap second. -/
def afterTime? (cs : List Char) : Option (List Char) := do
  let (_, cs) ← field? 2 0 23 cs
  let (_, cs) ← field? 2 0 59 (← after? ':' cs)
  let (_, cs) ← field? 2 0 60 (← after? ':' cs)
  match cs with
  | '.' :: rest =>
    let (digits, rest) := Binary64.splitDigits rest
    if digits = [] then none else return rest
  | cs => return cs

/-- The rest after the offset from universal time in front, if there is one. -/
def afterOffset? : List Char → Option (List Char)
  | 'Z' :: rest | 'z' :: rest => some rest
  | '+' :: rest | '-' :: rest => do
    let (_, cs) ← field? 2 0 23 rest
    let (_, cs) ← field? 2 0 59 (← after? ':' cs)
    return cs
  | cs => some cs

/-- The rest after a date in front, with the time of day that may follow it. -/
def afterMoment? (cs : List Char) : Option (List Char) :=
  match afterDate? cs with
  | none => afterTime? cs
  | some rest =>
    match rest with
    | [] => some []
    | c :: after =>
      if c = 'T' ∨ c = 't' ∨ c = ' ' then
        match afterTime? after with
        | some rest => afterOffset? rest
        | none => some (c :: after)
      else some (c :: after)

/-- A date, a time of day or both. -/
def moment? (cs : List Char) : Option (Value × List Char) :=
  (afterMoment? cs).map fun rest =>
    (.moment (String.ofList (cs.take (cs.length - rest.length))), rest)

/-- A scalar in front of the text. -/
def scalar? (cs : List Char) : Option (Value × List Char) :=
  match cs with
  | '"' :: _ | '\'' :: _ => (string? cs).map fun (s, rest) => (.text s, rest)
  | 't' :: _ => (afterWord? "true" cs).map (.boolean true, ·)
  | 'f' :: _ => (afterWord? "false" cs).map (.boolean false, ·)
  | _ => moment? cs <|> number? cs

end QuoteBoard.Toml
