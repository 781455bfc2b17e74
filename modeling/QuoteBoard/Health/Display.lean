/-
# The display

The cells as the outside sees them: the text of every row's price cell, and how many
writes have been applied. The display knows nothing of the board; it only follows the
effects of the engine.
-/

import QuoteBoard.Engine.State

namespace QuoteBoard.Health

/-- The cells, with the number of writes applied so far. -/
structure Display where
  cells : TextMap String
  writes : Nat
  deriving DecidableEq

namespace Display

/-- The display before the first write. -/
def blank : Display := ⟨TextMap.empty, 0⟩

/-- The text in the cell of a row. -/
def cell? (d : Display) (row : RowId) : Option String := d.cells.get? row

/-- Put a text into a cell. -/
def write (d : Display) (w : Write) : Display := ⟨d.cells.insert w.row w.text, d.writes + 1⟩

/-- Take a cell away. -/
def remove (d : Display) (row : RowId) : Display := ⟨d.cells.erase row, d.writes⟩

/-- Follow an effect of the engine. -/
def follow (d : Display) : Engine.Effect → Display
  | .write w => d.write w
  | .remove row => d.remove row
  | _ => d

end Display

end QuoteBoard.Health
