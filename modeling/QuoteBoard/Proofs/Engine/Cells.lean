/-
# What the cells show

The display follows the effects of an engine from the first to the last and sees
nothing else of it. It is nevertheless a copy of the board after every event: its cells
are the bound rows, each with the text that its row shows. That text in turn is always
that of the event by which the row was last addressed.
-/

import QuoteBoard.Health.Display
import QuoteBoard.Proofs.Board.Mirror
import QuoteBoard.Proofs.Board.Standing
import QuoteBoard.Proofs.Engine.Run

namespace QuoteBoard.Engine

open QuoteBoard.Health (Display)

/-! ## The display follows the board -/

/-- Only effects on cells change the cells of the display. -/
theorem cells_follow_filter (d : Display) (effects : List Effect) :
    (effects.foldl Display.follow d).cells =
      ((effects.filter Effect.isOnCells).foldl Display.follow d).cells := by
  induction effects generalizing d with
  | nil => rfl
  | cons e rest ih =>
      cases e with
      | write w => exact ih (d.write w)
      | remove row => exact ih (d.remove row)
      | measure | startSession | startFetch | reply => exact ih d

theorem cells_follow_removals (d : Display) (ids : List RowId) :
    ((ids.map Effect.remove).foldl Display.follow d).cells = removeCells d.cells ids := by
  induction ids generalizing d with
  | nil => rfl
  | cons id rest ih => exact ih (d.remove id)

theorem cells_follow_writes (d : Display) (writes : List Write) :
    ((writes.map Effect.write).foldl Display.follow d).cells = writeCells d.cells writes := by
  induction writes generalizing d with
  | nil => rfl
  | cons w rest ih => exact ih (d.write w)

/-- The display follows the removals and writes of an operation. -/
theorem cells_follow_cellEffects (d : Display) (p : Performed) :
    ((cellEffects p).foldl Display.follow d).cells = p.follow d.cells := by
  rw [cellEffects, List.foldl_append, cells_follow_writes, cells_follow_removals]
  rfl

variable (period : Nat) (started : Instant) (past : Past)

/-- The display after a past. -/
def displayAfter : Display := (effectsAfter period started past).foldl Display.follow .blank

/-- The display follows the effects of an event. -/
theorem displayAfter_cons (now : Instant) (e : Event) :
    displayAfter period started ((now, e) :: past) =
      ((stateAfter period started past).step now e).2.foldl Display.follow
        (displayAfter period started past) := List.foldl_append

theorem cells_displayAfter_cons (now : Instant) (e : Event) :
    (displayAfter period started ((now, e) :: past)).cells =
      (performed (stateAfter period started past).desk e.operation?).follow
        (displayAfter period started past).cells := by
  have hstep := carries_step (stateAfter period started past) now e
  rw [displayAfter_cons, cells_follow_filter, hstep.cells, cells_follow_cellEffects]

theorem namesRows_stateAfter : (stateAfter period started past).board.NamesRows := by
  rw [board_stateAfter]
  exact Desk.namesRows_after (operations past)

theorem shown_isSome_stateAfter {id : RowId} {r : Row}
    (hrow : (stateAfter period started past).board.row? id = some r) : r.shown.isSome = true := by
  rw [board_stateAfter] at hrow
  exact Desk.shown_isSome_after hrow

/-- The cells of the display mirror the rows after every event. -/
theorem mirrors_displayAfter :
    Mirrors (displayAfter period started past).cells
      (stateAfter period started past).desk.board := by
  induction past with
  | nil =>
      rw [desk_stateAfter]
      intro id
      rfl
  | cons p earlier ih =>
      obtain ⟨now, e⟩ := p
      rw [cells_displayAfter_cons, desk_stateAfter_cons]
      cases e.operation? with
      | none => exact ih
      | some op => exact ih.perform (namesRows_stateAfter period started earlier) op

/-- **The display mirrors the board.** Whatever an engine has handled, the cells are the bound rows
under their names, each with the text that its row shows. -/
theorem cells_displayAfter :
    (displayAfter period started past).cells =
        (stateAfter period started past).board.rows.map Row.cellText ∧
      ∀ id r, (stateAfter period started past).board.row? id = some r →
        r.id = id ∧ r.shown = some r.cellText := by
  have hshown : ∀ id r, (stateAfter period started past).board.row? id = some r →
      r.shown = some r.cellText := by
    intro id r hrow
    obtain ⟨text, htext⟩ :=
      Option.isSome_iff_exists.mp (shown_isSome_stateAfter period started past hrow)
    rw [Row.cellText, htext, Option.getD_some]
  constructor
  · apply TextMap.ext_get?
    intro id
    rw [mirrors_displayAfter, TextMap.get?_map]
    change ((stateAfter period started past).board.rows.get? id).bind Row.shown = _
    cases hrow : (stateAfter period started past).board.rows.get? id with
    | none => rfl
    | some r => exact hshown id r hrow
  · intro id r hrow
    exact ⟨namesRows_stateAfter period started past id r hrow, hshown id r hrow⟩

/-! ## The text of a row -/

/-- How an event addresses the row of a name, if it does. -/
def State.address? (s : State) (id : RowId) (e : Event) : Option Address :=
  e.operation?.bind (s.desk.address? id)

/-- How the row of a name was last addressed. -/
def lastAddress? (id : RowId) : Past → Option Address
  | [] => none
  | (_, e) :: earlier =>
    ((stateAfter period started earlier).address? id e).or (lastAddress? id earlier)

/-- The last address of a past is the first that its operations list. -/
theorem lastAddress?_eq_head? (id : RowId) :
    lastAddress? period started id past = (Desk.addresses id (operations past)).head? := by
  induction past with
  | nil => rfl
  | cons p earlier ih =>
      obtain ⟨now, e⟩ := p
      rw [lastAddress?, State.address?, operations_cons, desk_stateAfter, ih]
      cases e.operation? with
      | none => rfl
      | some op =>
          rw [Option.bind_some, Option.toList_some, List.singleton_append, Desk.addresses]
          cases (Desk.after (operations earlier)).address? id op with
          | none => rfl
          | some a => rfl

/-- An event that does not address a row leaves it alone, unless it makes it leave. -/
theorem row?_stateAfter_of_unaddressed {id : RowId} {now : Instant} {e : Event}
    (h : (stateAfter period started past).address? id e = none) :
    (stateAfter period started ((now, e) :: past)).board.row? id =
        (stateAfter period started past).board.row? id ∨
      (∃ op, e.operation? = some op ∧ Desk.Leaves id op) ∧
        (stateAfter period started ((now, e) :: past)).board.row? id = none := by
  have hboard := congrArg Desk.board (desk_stateAfter_cons period started now e past)
  change (stateAfter period started ((now, e) :: past)).board = _ at hboard
  rw [State.address?] at h
  rw [hboard]
  cases hop : e.operation? with
  | none => exact Or.inl rfl
  | some op =>
      rw [hop, Option.bind_some] at h
      rcases Desk.row?_perform_of_unaddressed h with hkept | ⟨hleaves, hgone⟩
      · exact Or.inl hkept
      · exact Or.inr ⟨⟨op, rfl, hleaves⟩, hgone⟩

/-- **No price in a cell is stale.** A bound row has been addressed. If it was last addressed by a
tick, it shows the text of the tick; otherwise it shows the price that the first of its candidates
with a price has now. Events that do not address a row change nothing about it, unless they make it
leave. -/
theorem row_shows_lastAddress {id : RowId} {r : Row}
    (hrow : (stateAfter period started past).board.row? id = some r) :
    (∃ a, lastAddress? period started id past = some a ∧
      match a with
      | .ticked price => r.shown = some ((price.map Price.text).getD placeholder)
      | .bound _ | .renewed =>
        ∀ before key rest price, r.candidates = before ++ key :: rest →
          (∀ k ∈ before, (stateAfter period started past).cache.get? k = none) →
          (stateAfter period started past).cache.get? key = some price →
          r.shown = some (Price.text price)) ∧
      ∀ now e, (stateAfter period started past).address? id e = none →
        (stateAfter period started ((now, e) :: past)).board.row? id = some r ∨
          (∃ op, e.operation? = some op ∧ Desk.Leaves id op) ∧
            (stateAfter period started ((now, e) :: past)).board.row? id = none := by
  constructor
  · have hafter := hrow
    rw [board_stateAfter] at hafter
    obtain ⟨a, older, hlast, hshows⟩ := Desk.shows_lastAddress hafter
    refine ⟨a, ?_, ?_⟩
    · rw [lastAddress?_eq_head?, hlast, List.head?_cons]
    · cases a with
      | ticked price => exact hshows
      | bound _ | renewed =>
          intro before key rest price hcandidates hbefore hkey
          rw [cache_stateAfter] at hbefore hkey
          apply hshows
          rw [hcandidates]
          exact Cache.first?_eq_some_of_split _ hbefore hkey
  · intro now e hunaddressed
    rw [← hrow]
    exact row?_stateAfter_of_unaddressed period started past hunaddressed

/-- A row is bound to two keys, shows a tick, and then a fetch brings the price of the second. -/
def fetchedPast : Past :=
  [(3, .fetched .poll (TextMap.ofList [("A", ⟨0x4024000000000000⟩)])),
    (2, .stream (.message "\x7b\"scripCode\": 7, \"ltp\": 5\x7d")),
    (1, .command (.replaceRows "u/"
      [{ id := "u/1", candidates := ["B", "A"], scrip := some "7" }]))]

/-- The row of `fetchedPast` shows the price of its second key, the first one with a price. -/
theorem row_shows_lastAddress_fetched :
    (stateAfter 1000 0 fetchedPast).board.row? "u/1" = some
        { id := "u/1", candidates := ["B", "A"], scrip := some "7", shown := some "10.00" } ∧
      lastAddress? 1000 0 "u/1" fetchedPast = some .renewed ∧
      some "10.00" = some (Price.text ⟨0x4024000000000000⟩) := by
  have hrow : (stateAfter 1000 0 fetchedPast).board.row? "u/1" = some
      { id := "u/1", candidates := ["B", "A"], scrip := some "7", shown := some "10.00" } := by
    decide +kernel
  have hlast : lastAddress? 1000 0 "u/1" fetchedPast = some .renewed := by decide +kernel
  obtain ⟨⟨a, ha, hshows⟩, -⟩ := row_shows_lastAddress 1000 0 fetchedPast hrow
  cases Option.some.inj (hlast.symm.trans ha)
  refine ⟨hrow, hlast, hshows ["B"] "A" [] _ rfl ?_ (by decide +kernel)⟩
  intro k hk
  rw [List.mem_singleton.mp hk]
  decide +kernel

end QuoteBoard.Engine
