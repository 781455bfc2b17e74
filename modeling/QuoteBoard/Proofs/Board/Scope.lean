/-
# What a replacement leaves alone

To replace the rows of a scope concerns the names that are listed and those that start with
the scope, and no other: every other row stays as it is, and nothing is written into its cell
nor is the cell taken away.
-/

import QuoteBoard.Proofs.Board.Lookup

namespace QuoteBoard.Board

variable (b : Board) (cache : Cache)

/-- A binding writes into the cell of its own name. -/
theorem row_of_write_bind {x : Binding} {w : Write} (hw : (b.bind x cache).2 = some w) :
    w.row = x.id :=
  (Row.write_of_render { toBinding := x, shown := b.shownIn x.id } cache hw).2

theorem row_of_mem_writes_bindAll {bindings : List Binding} {w : Write}
    (hw : w ∈ (b.bindAll bindings cache).2) : w.row ∈ bindings.map Binding.id := by
  induction bindings generalizing b with
  | nil => cases hw
  | cons x rest ih =>
      rw [bindAll_cons] at hw
      rw [List.map_cons]
      rcases List.mem_append.mp hw with hw | hw
      · rw [row_of_write_bind b cache (Option.mem_toList.mp hw)]
        exact List.mem_cons_self
      · exact List.mem_cons_of_mem _ (ih (b.bind x cache).1 hw)

theorem row_of_mem_writes_replaceScope {scope : String} {bindings : List Binding} {w : Write}
    (hw : w ∈ (b.replaceScope scope bindings cache).writes) : w.row ∈ bindings.map Binding.id := by
  rw [replaceScope_eq] at hw
  exact row_of_mem_writes_bindAll _ cache hw

theorem startsWith_of_mem_removed {scope : String} {bindings : List Binding} {id : RowId}
    (hid : id ∈ (b.replaceScope scope bindings cache).removed) :
    Text.startsWith scope id = true := by
  rw [replaceScope_eq] at hid
  have hleaves := (List.mem_filter.mp hid).2
  rw [leaves, Bool.and_eq_true] at hleaves
  exact hleaves.1

/-- A row outside the scope that is not listed stays as it is. -/
theorem row?_replaceScope_of_outside {scope : String} {bindings : List Binding} {id : RowId}
    (hscope : Text.startsWith scope id = false) (hid : id ∉ bindings.map Binding.id) :
    (b.replaceScope scope bindings cache).board.row? id = b.row? id := by
  rw [row?_replaceScope, lastBinding?_eq_none_iff.mpr hid, hscope]
  rfl

/-- A row of the scope that is not listed leaves. -/
theorem row?_replaceScope_of_inside {scope : String} {bindings : List Binding} {id : RowId}
    (hscope : Text.startsWith scope id = true) (hid : id ∉ bindings.map Binding.id) :
    (b.replaceScope scope bindings cache).board.row? id = none := by
  rw [row?_replaceScope, lastBinding?_eq_none_iff.mpr hid, hscope]
  rfl

/-- Only rows of the scope are listed as unpriced. -/
theorem startsWith_of_mem_unpriced {scope : String} {id : RowId} (hid : id ∈ b.unpriced scope) :
    Text.startsWith scope id = true := by
  obtain ⟨r, hr, rfl⟩ := List.mem_map.mp hid
  have htest := (List.mem_filter.mp hr).2
  rw [Bool.and_eq_true] at htest
  exact htest.1

end QuoteBoard.Board
