/-
# Pieces of a text

A text falls into pieces at its marks. There is one piece more than there are marks, so
that even the empty text has one, and a piece between two neighbouring marks is empty.
-/

namespace QuoteBoard.Text

/-- The pieces of a text between the characters that are marks. -/
def pieces (isMark : Char → Bool) : List Char → List (List Char)
  | [] => [[]]
  | c :: rest =>
    if isMark c then [] :: pieces isMark rest
    else
      match pieces isMark rest with
      | [] => [[c]]
      | piece :: others => (c :: piece) :: others

/-- What stands after the last mark of a text, or all of it. -/
def lastPiece (isMark : Char → Bool) (cs : List Char) : List Char :=
  (cs.reverse.takeWhile fun c => !isMark c).reverse

end QuoteBoard.Text
