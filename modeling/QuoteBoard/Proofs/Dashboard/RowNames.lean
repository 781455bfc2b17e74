/-
# The names of the rows of a table

A row is named by its own id, and a row without an id by a sign for its place in the table.
Ids differ from each other after the repetitions are left out, and so do the signs of
different places; but an id may be any text, and so it may be the sign of a place where a
row without an id stands. Nothing else makes two rows share a name, and of rows that share
one only the last keeps its cell and its identity.
-/

import QuoteBoard.Backend.Record
import QuoteBoard.Engine.Step
import QuoteBoard.Proofs.Board.Lookup
import QuoteBoard.Proofs.Dashboard.Repetitions
import Mathlib.Logic.Function.Basic

namespace QuoteBoard.Dashboard

open QuoteBoard.Backend (tradeRows)
open QuoteBoard.Engine (Instant State)
open QuoteBoard.Json (Value)

/-- The rows of a table, each with a cell and an identity of its own. -/
structure OwnCells (named : List NamedRow) (b : Board) : Prop where
  names : (named.map fun r => r.binding.id).Nodup
  bound : ∀ r ∈ named, (b.row? r.binding.id).map Row.toBinding = some r.binding
  identified : ∀ r ∈ named, identityOf? named r.binding.id = some r.identity

/-- The sign of a place. -/
def sign (place : Nat) : String := "#" ++ Nat.repr place

/-- Some row has the id that is the sign of a place where a row without an id stands. -/
def Collides (rows : List TradeRow) : Prop :=
  ∃ place row other, rows[place]? = some row ∧ row.id = none ∧
    other ∈ rows ∧ other.id = some (sign place)

/-! ## Which names are shared -/

/-- Different places have different signs, since a place can be read back from its digits. -/
theorem sign_injective : Function.Injective sign := by
  intro i j h
  have hrepr : Nat.repr i = Nat.repr j := (String.append_right_inj "#").mp h
  have hdigits : Nat.toDigits 10 i = Nat.toDigits 10 j := by
    rw [Nat.repr_eq_ofList_toDigits, Nat.repr_eq_ofList_toDigits] at hrepr
    exact String.ofList_injective hrepr
  calc i = Nat.ofDigitChars 10 (Nat.toDigits 10 i) 0 := Nat.ofDigitChars_ten_toDigits.symm
    _ = Nat.ofDigitChars 10 (Nat.toDigits 10 j) 0 := by rw [hdigits]
    _ = j := Nat.ofDigitChars_ten_toDigits

/-- A row is named by its id under the scope, or by the sign of its place. -/
theorem rowName_eq (scope : String) (place : Nat) (row : TradeRow) :
    rowName scope place row = scope ++ row.id.getD (sign place) := by
  rw [rowName]
  cases row.id with
  | none => exact String.append_assoc
  | some id => rfl

section Names

variable (scope : String) {rows : List TradeRow}

theorem getElem?_names (rows : List TradeRow) (place : Nat) :
    ((nameRows scope rows).map fun r => r.binding.id)[place]? =
      rows[place]?.map fun row => scope ++ row.id.getD (sign place) := by
  simp only [nameRows, List.map_map, List.getElem?_map, List.getElem?_zipIdx, Option.map_map,
    Function.comp_def, rowName_eq, Nat.zero_add]

/-- Where a place's sign is the id of another row, the two rows share a name. -/
theorem not_nodup_of_collides (h : Collides rows) :
    ¬ ((nameRows scope rows).map fun r => r.binding.id).Nodup := by
  obtain ⟨place, row, other, hrow, hnone, hother, hid⟩ := h
  obtain ⟨otherPlace, hplace⟩ := List.getElem?_of_mem hother
  intro hnodup
  have hsame : ((nameRows scope rows).map fun r => r.binding.id)[place]? =
      ((nameRows scope rows).map fun r => r.binding.id)[otherPlace]? := by
    rw [getElem?_names, getElem?_names, hrow, hplace, Option.map_some, Option.map_some, hnone, hid]
    rfl
  have hlt : place < ((nameRows scope rows).map fun r => r.binding.id).length := by
    simpa [nameRows] using (List.getElem?_eq_some_iff.mp hrow).1
  have heq : place = otherPlace := (List.getElem?_inj hlt hnodup).mp hsame
  subst heq
  cases Option.some.inj (hrow.symm.trans hplace)
  rw [hnone] at hid
  cases hid

/-- Where ids differ from each other and from the signs of places, no two rows share a name. -/
theorem nodup_of_not_collides (hids : (rows.filterMap TradeRow.id).Nodup) (h : ¬ Collides rows) :
    ((nameRows scope rows).map fun r => r.binding.id).Nodup := by
  rw [List.nodup_iff_getElem?_ne_getElem?]
  intro i j hij hj hsame
  have hlength : j < rows.length := by simpa [nameRows] using hj
  have hbefore : i < rows.length := Nat.lt_trans hij hlength
  obtain ⟨r, hr⟩ : ∃ r, rows[i]? = some r := ⟨_, List.getElem?_eq_getElem hbefore⟩
  obtain ⟨s, hs⟩ : ∃ s, rows[j]? = some s := ⟨_, List.getElem?_eq_getElem hlength⟩
  rw [getElem?_names, getElem?_names, hr, hs, Option.map_some, Option.map_some, Option.some_inj,
    String.append_right_inj] at hsame
  cases hrid : r.id with
  | none =>
      cases hsid : s.id with
      | none =>
          rw [hrid, hsid] at hsame
          exact Nat.ne_of_lt hij (sign_injective hsame)
      | some id =>
          rw [hrid, hsid] at hsame
          have hsign : s.id = some (sign i) := hsid.trans (congrArg some hsame.symm)
          exact h ⟨i, r, s, hr, hrid, List.mem_of_getElem? hs, hsign⟩
  | some id =>
      cases hsid : s.id with
      | none =>
          rw [hrid, hsid] at hsame
          have hsign : r.id = some (sign j) := hrid.trans (congrArg some hsame)
          exact h ⟨j, s, r, hs, hsid, List.mem_of_getElem? hr, hsign⟩
      | some other =>
          rw [hrid, hsid] at hsame
          have hdiffer := List.pairwise_iff_getElem.mp (List.pairwise_filterMap.mp hids) i j
            hbefore hlength hij
          obtain ⟨_, rfl⟩ := List.getElem?_eq_some_iff.mp hr
          obtain ⟨_, rfl⟩ := List.getElem?_eq_some_iff.mp hs
          exact hdiffer id hrid other hsid hsame

end Names

/-! ## Whose cell it is -/

section Cells

variable (s : State) (now : Instant) (scope : String) (named : List NamedRow)

/-- The board after the rows of a table have been bound. -/
def boundBoard : Board :=
  (s.step now (.command (.replaceRows scope (named.map NamedRow.binding)))).1.board

/-- **The last of the rows of a name keeps the cell and the identity.** -/
theorem last_keeps_cell {id : RowId} {r : NamedRow}
    (hlast : (named.reverse.find? fun r => r.binding.id = id) = some r) :
    ((boundBoard s now scope named).row? id).map Row.toBinding = some r.binding ∧
      identityOf? named id = some r.identity := by
  have hbinding : lastBinding? (named.map NamedRow.binding) id = some r.binding := by
    rw [lastBinding?, ← List.map_reverse, List.find?_map]
    exact congrArg (Option.map NamedRow.binding) hlast
  have hrow := Board.row?_replaceScope s.board s.cache scope (named.map NamedRow.binding) id
  rw [hbinding] at hrow
  constructor
  · refine (congrArg (Option.map Row.toBinding) hrow).trans ?_
    rw [Option.map_some, Row.bound_toBinding]
  · rw [identityOf?, hlast, Option.map_some]

/-- **Rows have cells of their own unless an id is the sign of a place.** -/
theorem ownCells_iff (payload : Value) :
    let kept := dedupe (tradeRows payload)
    OwnCells (nameRows scope kept) (boundBoard s now scope (nameRows scope kept)) ↔
      ¬ Collides kept := by
  intro kept
  constructor
  · intro h hcollides
    exact not_nodup_of_collides scope hcollides h.names
  · intro h
    have hnames := nodup_of_not_collides scope (nodup_ids_dedupe (tradeRows payload)) h
    have hcell : ∀ r ∈ nameRows scope kept, _ := fun r hr =>
      last_keeps_cell s now scope (nameRows scope kept) (find?_reverse_of_nodup hnames hr)
    exact ⟨hnames, fun r hr => (hcell r hr).1, fun r hr => (hcell r hr).2⟩

end Cells

/-- A row whose id is the sign of the second place, and a second row without an id. -/
def signedPayload : Value :=
  .array [.object [("id", .text "#1"), ("symbol", .text "X")], .object [("symbol", .text "Y")]]

/-- Not all rows have cells of their own: both rows of `signedPayload` get the name `#1`. -/
theorem not_forall_ownCells :
    ¬ ∀ (s : State) (now : Instant) (scope : String) (payload : Value),
      let named := nameRows scope (dedupe (tradeRows payload))
      OwnCells named (boundBoard s now scope named) := by
  intro h
  have hnames := (h (.initial 1000) 0 "u/requests/" signedPayload).names
  have hshared : ((nameRows "u/requests/" (dedupe (tradeRows signedPayload))).map
      fun r => r.binding.id) = ["u/requests/#1", "u/requests/#1"] := by decide +kernel
  rw [hshared] at hnames
  exact absurd hnames (by decide)

end QuoteBoard.Dashboard
