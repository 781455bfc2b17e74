/-
# Rows of the board

A row is bound to its candidate keys and, once it is known, to a scrip code, under
which the feed may address it directly. The row remembers the text in its cell, so
that a cell is written only when its text changes.
-/

import QuoteBoard.Price.Cache
import QuoteBoard.Price.Text

namespace QuoteBoard

/-- The name of a row, unique on the board. -/
abbrev RowId := String

/-- What a row is bound to. -/
structure Binding where
  id : RowId
  /-- The keys to look up, most preferred first. -/
  candidates : List Key
  /-- The broker's code for the instrument, once known. -/
  scrip : Option String := none
  deriving DecidableEq

/-- A new text for the cell of a row. -/
structure Write where
  row : RowId
  text : String
  deriving DecidableEq, Repr

/-- A bound row with the text in its cell; there is none before the first write. -/
structure Row extends Binding where
  shown : Option String := none
  deriving DecidableEq

namespace Row

/-- The key that the row is priced by if its price is known. -/
def primary? (r : Row) : Option Key := r.candidates.head?

/-- No price has been shown. -/
def isUnpriced (r : Row) : Bool := r.shown.isNone || r.shown == some placeholder

/-- One of the keys is a candidate of the row. -/
def references (r : Row) (keys : List Key) : Bool := r.candidates.any (keys.contains ·)

/-- Put a text into the cell; it is written only if it differs from the text there. -/
def display (r : Row) (text : String) : Row × Option Write :=
  if r.shown = some text then (r, none)
  else ({ r with shown := some text }, some ⟨r.id, text⟩)

/-- Show the price of the first candidate that has one. Without any price an empty cell gets
the placeholder and a written cell stays. -/
def render (r : Row) (cache : Cache) : Row × Option Write :=
  match cache.first? r.candidates with
  | some price => r.display (Price.text price)
  | none => if r.shown.isNone then r.display placeholder else (r, none)

end Row

end QuoteBoard
