/-
# Prices and rows together

The cache and the board change together by five operations: a row is bound, the rows
of a scope are replaced, a batch of prices is taken in and the rows that look up one of
its keys are shown anew, a resolved contract is attached to a row, and a tick is shown
in the rows that carry its code. A log lists operations with the latest first, so what
has become of a row can be read off a log by recursion on it.
-/

import QuoteBoard.Proofs.Board.Lookup

namespace QuoteBoard

/-- The prices that are known, and the rows that show them. -/
structure Desk where
  cache : Cache
  board : Board
  deriving DecidableEq

/-- What changes prices or rows. -/
inductive Operation where
  | bind (binding : Binding)
  | replaceScope (scope : String) (bindings : List Binding)
  /-- Take in a batch of prices, then show anew the rows that look up one of its keys. -/
  | merge (batch : List (Key × Binary64))
  | attach (row : RowId) (scrip : Option String) (key : Key)
  | tick (code : String) (price : Option Binary64)

/-- What an operation leaves: cells are removed first and written then. -/
structure Performed where
  desk : Desk
  removed : List RowId
  writes : List Write

namespace Desk

/-- No price and no row. -/
def empty : Desk := ⟨Cache.empty, Board.empty⟩

/-- Carry out an operation. -/
def perform (d : Desk) : Operation → Performed
  | .bind x =>
    let (board, write) := d.board.bind x d.cache
    ⟨{ d with board }, [], write.toList⟩
  | .replaceScope scope bindings =>
    let r := d.board.replaceScope scope bindings d.cache
    ⟨{ d with board := r.board }, r.removed, r.writes⟩
  | .merge batch =>
    let (cache, keys) := d.cache.merge batch
    let (board, writes) := d.board.refresh cache keys
    ⟨⟨cache, board⟩, [], writes⟩
  | .attach row scrip key =>
    let (board, write) := d.board.attach row scrip key d.cache
    ⟨{ d with board }, [], write.toList⟩
  | .tick code price =>
    let (board, writes) := d.board.tick code price
    ⟨{ d with board }, [], writes⟩

/-- Prices and rows after the operations of a log, the latest of which comes first. -/
def after : List Operation → Desk
  | [] => empty
  | op :: earlier => ((after earlier).perform op).desk

theorem after_cons (op : Operation) (earlier : List Operation) :
    after (op :: earlier) = ((after earlier).perform op).desk := rfl

/-- A row looks up a key that a batch reports exactly if it looks up one that the batch names. -/
theorem references_merge_keys (cache : Cache) (batch : List (Key × Binary64)) (r : Row) :
    r.references (cache.merge batch).2 = r.references (batch.map Prod.fst) := by
  rw [Bool.eq_iff_iff, Row.references_iff, Row.references_iff]
  simp only [Cache.mem_merge_keys]

variable (d : Desk)

/-- A batch shows anew exactly the rows that look up a key that it names. -/
theorem row?_perform_merge (batch : List (Key × Binary64)) (id : RowId) :
    (d.perform (.merge batch)).desk.board.row? id =
      (d.board.row? id).map fun r =>
        if r.references (batch.map Prod.fst) then
          { r with shown := some (r.due (d.cache.merge batch).1) }
        else r := by
  change (d.board.refresh (d.cache.merge batch).1 (d.cache.merge batch).2).1.row? id = _
  rw [Board.refresh_eq_repaint, Board.row?_repaint]
  simp only [references_merge_keys]

/-- A batch finds a row as it was bound, and leaves it as if it had been bound after the batch. -/
theorem row?_perform_merge_of_bound {id : RowId} {x : Binding} {inherited : Option String}
    (hrow : d.board.row? id = some (Row.bound d.cache x inherited))
    (batch : List (Key × Binary64)) :
    (d.perform (.merge batch)).desk.board.row? id =
      some (Row.bound (d.cache.merge batch).1 x inherited) := by
  rw [row?_perform_merge, hrow, Option.map_some, Option.some_inj]
  split
  · rw [Row.due_bound d.cache (d.cache.first?_eq_none_of_merge batch), Row.bound, Row.bound,
      Row.render_fst, Row.render_fst]
  · next hreferences =>
      have hdisjoint : ∀ k ∈ x.candidates, k ∉ batch.map Prod.fst := by
        intro k hk hbatch
        apply hreferences
        rw [Row.references_iff, Row.bound_toBinding]
        exact ⟨k, hk, hbatch⟩
      have hprice := d.cache.first?_merge_of_disjoint batch hdisjoint
      rw [Row.bound, Row.bound, Row.render_fst, Row.render_fst, Row.due, Row.due, hprice]

/-- No operation takes a price away. -/
theorem first?_eq_none_of_perform {op : Operation} {keys : List Key}
    (hkeys : (d.perform op).desk.cache.first? keys = none) : d.cache.first? keys = none := by
  cases op with
  | merge batch => exact d.cache.first?_eq_none_of_merge batch hkeys
  | bind | replaceScope | attach | tick => exact hkeys

variable {d}

theorem namesRows_perform (h : d.board.NamesRows) (op : Operation) :
    (d.perform op).desk.board.NamesRows := by
  cases op with
  | bind x => exact h.bindAll d.cache [x]
  | replaceScope scope bindings => exact (h.without scope bindings).bindAll d.cache bindings
  | merge batch =>
      change (d.board.refresh (d.cache.merge batch).1 (d.cache.merge batch).2).1.NamesRows
      rw [Board.refresh_eq_repaint]
      exact h.repaint _ _
  | attach row scrip key => exact h.attach d.cache row scrip key
  | tick code price =>
      change (d.board.tick code price).1.NamesRows
      rw [Board.tick_eq_repaint]
      exact h.repaint _ _

/-- Rows are always kept under their own names. -/
theorem namesRows_after (log : List Operation) : (after log).board.NamesRows := by
  induction log with
  | nil => exact Board.namesRows_empty
  | cons op earlier ih => exact namesRows_perform ih op

end Desk

end QuoteBoard
