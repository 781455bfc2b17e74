/-
# What stands in the cell of a row

The text of a bound row is determined by how its log addresses it. A row whose
candidates have a price shows the price of the first of them, unless a tick was the last
to address it. A row none of whose candidates has a price shows the last tick since it
was bound. Without such a tick it shows what its cell held when it was bound, which may
be the price of an instrument that the row is no longer bound to.
-/

import QuoteBoard.Proofs.Board.Address

namespace QuoteBoard

/-- The text of the last tick that a row has shown since it was bound. -/
def tickSinceBound? : List Address → Option String
  | [] | .bound _ :: _ => none
  | .renewed :: older => tickSinceBound? older
  | .ticked price :: _ => some (Board.tickText price)

/-- The text that the cell of a row held when the row was last bound. -/
def textWhenBound? : List Address → Option String
  | [] => none
  | .bound inherited :: _ => inherited
  | .renewed :: older | .ticked _ :: older => textWhenBound? older

namespace Desk

variable {id : RowId} {log : List Operation} {r : Row}

/-- A row shows what it was addressed with. -/
def Shows (cache : Cache) (r : Row) : Address → Prop
  | .ticked price => r.shown = some (Board.tickText price)
  | .bound _ | .renewed =>
    ∀ price, cache.first? r.candidates = some price → r.shown = some (Price.text price)

/-- **What a row was last addressed with stays.** Every bound row has been addressed, and it shows
the text of a tick if it was last addressed by one, and else the price of its candidates. -/
theorem shows_lastAddress (hrow : (after log).board.row? id = some r) :
    ∃ a older, addresses id log = a :: older ∧ Shows (after log).cache r a := by
  apply row_induction (motive := fun cache addressed r =>
    ∃ a older, addressed = a :: older ∧ Shows cache r a) _ _ _ _ hrow
  · rintro before after addressed r hprice ⟨a, older, hlast, hshows⟩
    refine ⟨a, older, hlast, ?_⟩
    cases a with
    | ticked price => exact hshows
    | bound _ | renewed =>
        intro price hfirst
        exact hshows price (hprice.symm.trans hfirst)
  · intro cache addressed x inherited
    refine ⟨_, _, rfl, ?_⟩
    intro price hfirst
    rw [Row.bound_toBinding] at hfirst
    rw [Row.bound_shown]
    exact congrArg some (Row.due_of_price _ _ hfirst)
  · intro before after addressed old changed _ _ _ _
    refine ⟨_, _, rfl, ?_⟩
    intro price hfirst
    exact congrArg some (Row.due_of_price changed _ hfirst)
  · intro cache addressed old price _
    exact ⟨_, _, rfl, rfl⟩

/-- What a row shows while none of its candidates has a price. -/
theorem shown_of_no_price (hrow : (after log).board.row? id = some r)
    (hprice : (after log).cache.first? r.candidates = none) :
    r.shown = some ((tickSinceBound? (addresses id log)).getD
      ((textWhenBound? (addresses id log)).getD placeholder)) := by
  revert hprice
  apply row_induction (motive := fun cache addressed r => cache.first? r.candidates = none →
    r.shown = some ((tickSinceBound? addressed).getD
      ((textWhenBound? addressed).getD placeholder))) _ _ _ _ hrow
  · intro before after addressed r hkept ih hprice
    exact ih (hkept.symm.trans hprice)
  · intro cache addressed x inherited hprice
    rw [Row.bound_toBinding] at hprice
    rw [Row.bound_shown]
    exact congrArg some (Row.due_of_no_price _ _ hprice)
  · intro before after addressed old changed hprices hshown hcandidates ih hprice
    -- the old candidates are among the new ones, so they had no price either
    have hbefore : before.first? old.candidates = none := by
      apply hprices
      rw [Cache.first?_eq_none_iff] at hprice ⊢
      exact fun k hk => hprice k (hcandidates k hk)
    have hdue := Row.due_of_no_price changed _ hprice
    rw [hshown, ih hbefore, Option.getD_some] at hdue
    exact congrArg some hdue
  · intro cache addressed old price _ _
    rfl

/-- The cell of every bound row has been written. -/
theorem shown_isSome_after (hrow : (after log).board.row? id = some r) :
    r.shown.isSome = true := by
  apply row_induction (motive := fun _ _ r => r.shown.isSome = true) _ _ _ _ hrow
  · intro before after addressed r _ ih
    exact ih
  · intro cache addressed x inherited
    rw [Row.bound_shown, Option.isSome_some]
  · intro before after addressed old changed _ _ _ _
    rfl
  · intro cache addressed old price _
    rfl

/-- **Where the placeholder stands.** A bound row none of whose candidates has a price, and which
has shown no tick since it was bound, shows the placeholder exactly if its cell was empty or held
the placeholder when the row was bound. Otherwise it goes on showing what the cell held then. -/
theorem placeholder_iff_of_no_price (hrow : (after log).board.row? id = some r)
    (hprice : (after log).cache.first? r.candidates = none)
    (htick : tickSinceBound? (addresses id log) = none) :
    (r.shown = some placeholder ↔
      textWhenBound? (addresses id log) = none ∨
        textWhenBound? (addresses id log) = some placeholder) ∧
      ∀ text, textWhenBound? (addresses id log) = some text → r.shown = some text := by
  have hshown := shown_of_no_price hrow hprice
  rw [htick, Option.getD_none] at hshown
  cases htext : textWhenBound? (addresses id log) with
  | none =>
      rw [htext, Option.getD_none] at hshown
      exact ⟨⟨fun _ => Or.inl rfl, fun _ => hshown⟩, fun text h => by cases h⟩
  | some text =>
      rw [htext, Option.getD_some] at hshown
      rw [hshown]
      simp

/-- A row that shows a price under one key and is then bound to another, latest operation first. -/
def reboundLog : List Operation :=
  [.bind { id := "r", candidates := ["B"] }, .bind { id := "r", candidates := ["A"] },
    .merge [("A", ⟨0x4024000000000000⟩)]]

/-- The row of `reboundLog` goes on showing the price of the key that it has lost. -/
theorem placeholder_iff_of_no_price_rebound :
    (∃ r, (after reboundLog).board.row? "r" = some r ∧
      (after reboundLog).cache.first? r.candidates = none ∧
      r.shown = some "10.00") ∧
    tickSinceBound? (addresses "r" reboundLog) = none ∧
    textWhenBound? (addresses "r" reboundLog) = some "10.00" := by
  have hrow : (after reboundLog).board.row? "r" =
      some { id := "r", candidates := ["B"], shown := some "10.00" } := by decide +kernel
  have hprice : (after reboundLog).cache.first? ["B"] = none := by decide +kernel
  have htick : tickSinceBound? (addresses "r" reboundLog) = none := by decide +kernel
  have htext : textWhenBound? (addresses "r" reboundLog) = some "10.00" := by decide +kernel
  have hshown := (placeholder_iff_of_no_price hrow hprice htick).2 "10.00" htext
  exact ⟨⟨_, hrow, hprice, hshown⟩, htick, htext⟩

/-- Not every row that has no price and has shown no tick since it was bound shows the
placeholder. -/
theorem not_forall_shows_placeholder :
    ¬ ∀ (log : List Operation) (id : RowId) (r : Row), (after log).board.row? id = some r →
      (after log).cache.first? r.candidates = none →
      tickSinceBound? (addresses id log) = none → r.shown = some placeholder := by
  intro hall
  have hrow : (after reboundLog).board.row? "r" =
      some { id := "r", candidates := ["B"], shown := some "10.00" } := by decide +kernel
  have hshown := hall reboundLog "r" _ hrow (by decide +kernel) (by decide +kernel)
  exact absurd hshown (by decide)

end Desk

end QuoteBoard
