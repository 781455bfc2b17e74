/-
# Blank characters

A character is blank when it has the Unicode property `White_Space`. Texts that
come from a feed, a backend or a settings file are compared after blanks at both
ends are taken off, and a text made of blanks alone counts as absent.
-/

namespace QuoteBoard.Text

/-- The property `White_Space`: twenty-five code points, in ten runs. -/
def isBlank (c : Char) : Bool :=
  let n := c.toNat
  (0x09 ≤ n && n ≤ 0x0D) || n == 0x20 || n == 0x85 || n == 0xA0 || n == 0x1680 ||
  (0x2000 ≤ n && n ≤ 0x200A) || n == 0x2028 || n == 0x2029 || n == 0x202F ||
  n == 0x205F || n == 0x3000

/-- The characters between the first and the last that is not blank. -/
def trimChars (cs : List Char) : List Char :=
  ((cs.dropWhile isBlank).reverse.dropWhile isBlank).reverse

/-- A text without the blanks at its two ends. -/
def trim (s : String) : String :=
  String.ofList (trimChars s.toList)

/-- A trimmed text, unless nothing is left of it. -/
def nonBlank (s : String) : Option String :=
  let t := trim s
  if t = "" then none else some t

/-- An optional text, trimmed; a blank one counts as absent. -/
def present (s : Option String) : Option String :=
  s.bind nonBlank

/-- Two texts are equal up to the case of ASCII letters. -/
def eqIgnoringCase (a b : String) : Bool :=
  a.toUpper == b.toUpper

/-- A text starts with another, character by character. -/
def startsWith (start s : String) : Bool :=
  start.toList.isPrefixOf s.toList

theorem startsWith_iff {start s : String} :
    startsWith start s = true ↔ start.toList <+: s.toList :=
  List.isPrefixOf_iff_prefix

@[simp] theorem toList_trim (s : String) : (trim s).toList = trimChars s.toList := by
  simp [trim]

end QuoteBoard.Text
