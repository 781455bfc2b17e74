/-
# Reading a settings file

The grammar of TOML 1.0: statements on lines of their own, dotted and quoted keys,
arrays over several lines, inline tables on one line. Arrays and inline tables nest
less than eighty deep, and a key has less than eighty parts.
-/

import QuoteBoard.Toml.Scalar

namespace QuoteBoard.Toml

/-- One more than the depth to which arrays and inline tables may nest, and than the number of
parts that a key may have. -/
def depthLimit : Nat := 80

/-- The rest of the line after a number sign, left out. -/
def skipComment : List Char → List Char
  | '#' :: rest => rest.dropWhile isPlain
  | cs => cs

/-- The rest after the end of a line: blanks, a comment, and a line end or the end of the file. -/
def afterLine? (cs : List Char) : Option (List Char) :=
  match skipComment (skipGaps cs) with
  | [] => some []
  | cs => afterNewline? cs

/-- Leave out blanks, comments and line ends in front. -/
def skipAll : Nat → List Char → List Char
  | 0, cs => cs
  | fuel + 1, cs =>
    let cs := skipGaps cs
    match afterNewline? (skipComment cs) with
    | some rest => skipAll fuel rest
    | none => cs

/-- A character of a key without quotes. -/
def isBare (c : Char) : Bool := c.isAlphanum || c == '-' || c == '_'

/-- A part of a key. -/
def keyPart? : List Char → Option (String × List Char)
  | '"' :: rest => basicString? (rest.length + 1) rest []
  | '\'' :: rest => literalString? rest
  | cs =>
    let name := cs.takeWhile isBare
    if name = [] then none else some (String.ofList name, cs.drop name.length)

/-- The parts of a key with blanks around them: those before the last, the last, and the rest. -/
def key? : Nat → List Char → Option (List String × String × List Char)
  | 0, _ => none
  | room + 1, cs => do
    let (part, rest) ← keyPart? (skipGaps cs)
    match skipGaps rest with
    | '.' :: rest =>
      let (path, name, rest) ← key? room rest
      return (part :: path, name, rest)
    | rest => return ([], part, rest)

mutual

/-- A value in front of the text, with room for so many levels of nesting. -/
def value? : Nat → Nat → List Char → Option (Value × List Char)
  | 0, _, _ => none
  | fuel + 1, room, cs =>
    match cs with
    | '[' :: rest =>
      match room with
      | 0 => none
      | room + 1 => (items? fuel room rest).map fun (vs, rest) => (.array vs, rest)
    | '{' :: rest =>
      match room with
      | 0 => none
      | room + 1 =>
        match skipGaps rest with
        | '}' :: rest => some (.table [], rest)
        | rest => do
          let (pairs, rest) ← pairs? fuel room rest
          return (.table (← inlineFields pairs), rest)
    | cs => scalar? cs

/-- The items of an array up to its closing bracket. -/
def items? : Nat → Nat → List Char → Option (List Value × List Char)
  | 0, _, _ => none
  | fuel + 1, room, cs =>
    match skipAll cs.length cs with
    | ']' :: rest => some ([], rest)
    | cs => do
      let (v, rest) ← value? fuel room cs
      match skipAll rest.length rest with
      | ',' :: rest =>
        let (vs, rest) ← items? fuel room rest
        return (v :: vs, rest)
      | ']' :: rest => return ([v], rest)
      | _ => none

/-- One or more pairs of an inline table up to its closing brace. -/
def pairs? : Nat → Nat → List Char → Option (List (List String × String × Value) × List Char)
  | 0, _, _ => none
  | fuel + 1, room, cs => do
    let (path, name, rest) ← key? (depthLimit - 1) cs
    let rest ← after? '=' rest
    let (v, rest) ← value? fuel room (skipGaps rest)
    match skipGaps rest with
    | ',' :: rest =>
      let (pairs, rest) ← pairs? fuel room rest
      return ((path, name, v) :: pairs, rest)
    | '}' :: rest => return ([(path, name, v)], rest)
    | _ => none

end

/-- A header or a pair in front of the text, with the end of its line. -/
def statement? (cs : List Char) : Option (Statement × List Char) :=
  match cs with
  | '[' :: '[' :: rest => do
    let (path, name, rest) ← key? (depthLimit - 1) rest
    let rest ← after? ']' (← after? ']' rest)
    return (.elementHeader path name, ← afterLine? rest)
  | '[' :: rest => do
    let (path, name, rest) ← key? (depthLimit - 1) rest
    let rest ← after? ']' rest
    return (.header path name, ← afterLine? rest)
  | cs => do
    let (path, name, rest) ← key? (depthLimit - 1) cs
    let rest ← after? '=' rest
    let (v, rest) ← value? (2 * rest.length + 1) (depthLimit - 1) (skipGaps rest)
    return (.pair path name v, ← afterLine? rest)

/-- All statements of a text; lines without one are passed over. -/
def statements? : Nat → List Char → Option (List Statement)
  | 0, _ => none
  | fuel + 1, cs =>
    match skipGaps cs with
    | [] => some []
    | '#' :: rest => do statements? fuel (← afterLine? ('#' :: rest))
    | cs =>
      match afterNewline? cs with
      | some rest => statements? fuel rest
      | none => do
        let (s, rest) ← statement? cs
        return s :: (← statements? fuel rest)

/-- A byte order mark in front of a text, left out. -/
def skipMark : List Char → List Char
  | '\uFEFF' :: rest => rest
  | cs => cs

/-- The fields that a settings file describes. -/
def ofText? (s : String) : Option (List (String × Value)) := do
  let cs := skipMark s.toList
  assemble (← statements? (cs.length + 1) cs)

end QuoteBoard.Toml
