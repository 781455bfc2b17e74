/-
# The board

All rows on screen, by name. Each operation answers with the cell writes that bring
the cells in line with the rows: a batch of prices refreshes the rows that look up
one of its keys, a tick addressed by scrip code patches the rows that carry the code,
a resolved contract adds a key to a row, and a reload replaces the rows of a table.
-/

import QuoteBoard.Board.Row

namespace QuoteBoard

/-- All rows on screen, by name. -/
structure Board where
  rows : TextMap Row
  deriving DecidableEq

namespace Board

/-- The board without rows. -/
def empty : Board := ⟨TextMap.empty⟩

/-- The number of rows. -/
def size (b : Board) : Nat := b.rows.size

/-- The row of a name. -/
def row? (b : Board) (id : RowId) : Option Row := b.rows.get? id

/-- Change every row, in the order of names; the writes come in the same order. -/
def change (b : Board) (f : Row → Row × Option Write) : Board × List Write :=
  (⟨b.rows.map fun r => (f r).1⟩, b.rows.values.filterMap fun r => (f r).2)

/-- Bind a row, in place of one of the same name if there is one. The text in its cell is
kept, so a price that has not changed is not written again. -/
def bind (b : Board) (binding : Binding) (cache : Cache) : Board × Option Write :=
  let shown := (b.row? binding.id).bind Row.shown
  let (row, write) := Row.render { toBinding := binding, shown } cache
  (⟨b.rows.insert row.id row⟩, write)

/-- Bind rows one after the other. -/
def bindAll (b : Board) (bindings : List Binding) (cache : Cache) : Board × List Write :=
  bindings.foldl (fun (b, writes) binding =>
    let (b, write) := b.bind binding cache
    (b, writes ++ write.toList)) (b, [])

/-- The outcome of replacing the rows of a table. -/
structure Replacement where
  board : Board
  writes : List Write
  /-- The rows that left, in the order of their names. -/
  removed : List RowId

/-- Replace the rows whose names start with `scope` by others, each shown once. -/
def replaceScope (b : Board) (scope : String) (bindings : List Binding) (cache : Cache) :
    Replacement :=
  let incoming := bindings.map Binding.id
  let leaves (id : RowId) : Bool := Text.startsWith scope id && !incoming.contains id
  let (board, writes) := bindAll ⟨b.rows.filterKeys fun id => !leaves id⟩ bindings cache
  { board, writes, removed := b.rows.keys.filter leaves }

/-- Show anew every row that looks up one of the keys. -/
def refresh (b : Board) (cache : Cache) (keys : List Key) : Board × List Write :=
  b.change fun r => if r.references keys then r.render cache else (r, none)

/-- Show a price in every row that carries the scrip code; the cache has no part in it. -/
def tick (b : Board) (scrip : String) (price : Option Binary64) : Board × List Write :=
  let text := (price.map Price.text).getD placeholder
  b.change fun r => if r.scrip = some scrip then r.display text else (r, none)

/-- Add what a resolution found to a row: a scrip code takes the place of the old one, and a
key that is new to the row becomes its last candidate. -/
def attach (b : Board) (id : RowId) (scrip : Option String) (key : Key) (cache : Cache) :
    Board × Option Write :=
  match b.row? id with
  | none => (b, none)
  | some r =>
    let candidates := if r.candidates.contains key then r.candidates else r.candidates ++ [key]
    let (row, write) := Row.render { r with scrip := scrip <|> r.scrip, candidates } cache
    (⟨b.rows.insert id row⟩, write)

/-- Every key that some row looks up, in ascending order. -/
def trackedKeys (b : Board) : List Key := ascending (b.rows.values.flatMap (·.candidates))

/-- The rows under a scope that show no price, in the order of their names. -/
def unpriced (b : Board) (scope : String) : List RowId :=
  (b.rows.values.filter fun r => Text.startsWith scope r.id && r.isUnpriced).map (·.id)

end Board

end QuoteBoard
