/-
# What a replacement does

To replace the rows of a scope is to drop the names under it that are not listed and to bind the
list one after the other. What comes of it depends only on which names are under the scope and
which are listed: names may be listed that are outside the scope, and a name that is listed again
and again is bound as the last of its bindings says. The removals and the writes that are answered
are all that a copy of the texts needs to keep up.
-/

import QuoteBoard.Proofs.Board.Mirror
import QuoteBoard.Proofs.Board.Scope
import QuoteBoard.Proofs.Text.Map

namespace QuoteBoard

theorem Text.startsWith_eq_false_iff {start s : String} :
    startsWith start s = false ↔ ¬ start.toList <+: s.toList := by
  rw [← startsWith_iff, Bool.not_eq_true]

/-- A binding behind which its name is not listed again is the last one of its name. -/
theorem lastBinding?_of_split {before after : List Binding} {x : Binding}
    (hx : x.id ∉ after.map Binding.id) : lastBinding? (before ++ x :: after) x.id = some x := by
  refine find?_reverse_eq_some_iff.mpr ⟨decide_eq_true rfl, before, after, rfl, fun y hy => ?_⟩
  exact decide_eq_false fun hid => hx (List.mem_map.mpr ⟨y, hy, hid⟩)

namespace Board

variable (b : Board) (cache : Cache) (scope : String) (bindings : List Binding)

/-- The texts that the rows show, under their names. -/
def texts : TextMap String :=
  .ofList (b.rows.entries.filterMap fun p => p.2.shown.map (p.1, ·))

theorem mirrors_texts : Mirrors b.texts b :=
  TextMap.get?_ofList_filterMap b.rows.nodup_keys Row.shown

/-- Cells that mirror a board hold its texts. -/
theorem eq_texts_of_mirrors {cells : TextMap String} (h : Mirrors cells b) : cells = b.texts :=
  TextMap.ext_get? fun id => (h id).trans (b.mirrors_texts id).symm

/-- A name is bound exactly if there is a row under it. -/
theorem mem_keys_iff_row? {id : RowId} : id ∈ b.rows.keys ↔ b.row? id ≠ none := by
  rw [TextMap.mem_keys_iff, Option.ne_none_iff_exists']
  rfl

/-- A name leaves if it is under the scope and not listed. -/
theorem leaves_iff {id : RowId} :
    leaves scope bindings id = true ↔
      scope.toList <+: id.toList ∧ id ∉ bindings.map Binding.id := by
  rw [leaves, Bool.and_eq_true, Text.startsWith_iff, Bool.not_eq_true', List.contains_eq_mem,
    decide_eq_false_iff_not]

/-- The names that are bound afterwards are those outside the scope and those that are listed. -/
theorem mem_keys_replaceScope {id : RowId} :
    id ∈ (b.replaceScope scope bindings cache).board.rows.keys ↔
      (id ∈ b.rows.keys ∧ ¬ scope.toList <+: id.toList) ∨ id ∈ bindings.map Binding.id := by
  rw [mem_keys_iff_row?, mem_keys_iff_row?, row?_replaceScope,
    ← Text.startsWith_eq_false_iff]
  by_cases hlisted : id ∈ bindings.map Binding.id
  · obtain ⟨x, hx⟩ := Option.isSome_iff_exists.mp (lastBinding?_isSome_iff.mpr hlisted)
    simp only [hx, hlisted, or_true, ne_eq, reduceCtorEq, not_false_eq_true]
  · rw [lastBinding?_eq_none_iff.mpr hlisted]
    cases Text.startsWith scope id <;> simp [hlisted]

theorem mem_removed_iff {id : RowId} :
    id ∈ (b.replaceScope scope bindings cache).removed ↔
      id ∈ b.rows.keys ∧ scope.toList <+: id.toList ∧ id ∉ bindings.map Binding.id := by
  rw [replaceScope_eq, List.mem_filter, leaves_iff]

/-- **A replacement does exactly what it says.** Whatever the scope and the list are, the names that
are bound afterwards are the old ones outside the scope and those that are listed; a listed name
has the keys and the scrip code of its last binding; an old row that is neither under the scope nor
listed is left as it is; the names that left are the old ones under the scope that are not listed,
in ascending order; and the old texts without the removed names, with the writes put into them in
order, are the new texts. -/
theorem replaceScope_exact (b : Board) (cache : Cache) (scope : String)
    (bindings : List Binding) :
    let r := b.replaceScope scope bindings cache
    let listed := bindings.map Binding.id
    (∀ id, id ∈ r.board.rows.keys ↔
      (id ∈ b.rows.keys ∧ ¬ scope.toList <+: id.toList) ∨ id ∈ listed) ∧
    (∀ before x after, bindings = before ++ x :: after → x.id ∉ after.map Binding.id →
      ∃ row, r.board.row? x.id = some row ∧ row.toBinding = x) ∧
    (∀ id row, b.row? id = some row → ¬ scope.toList <+: id.toList → id ∉ listed →
      r.board.row? id = some row) ∧
    (r.removed.Pairwise (· < ·) ∧ ∀ id, id ∈ r.removed ↔
      id ∈ b.rows.keys ∧ scope.toList <+: id.toList ∧ id ∉ listed) ∧
    writeCells (removeCells b.texts r.removed) r.writes = r.board.texts := by
  intro r listed
  refine ⟨fun id => b.mem_keys_replaceScope cache scope bindings, ?_, ?_, ⟨?_, ?_⟩, ?_⟩
  · rintro before x after hsplit hlast
    have hx : lastBinding? bindings x.id = some x := by
      rw [hsplit]
      exact lastBinding?_of_split hlast
    refine ⟨Row.bound cache x (b.inherited cache x.id bindings), ?_, Row.bound_toBinding ..⟩
    simp only [r, row?_replaceScope, hx]
  · intro id row hrow hscope hlisted
    rw [← hrow]
    exact b.row?_replaceScope_of_outside cache (Text.startsWith_eq_false_iff.mpr hscope) hlisted
  · exact b.rows.pairwise_keys.filter _
  · exact fun id => b.mem_removed_iff cache scope bindings
  · apply eq_texts_of_mirrors
    exact (b.mirrors_texts.without scope bindings).bindAll bindings

/-- Two rows of a table and one of another. -/
def twoTables : Board :=
  (empty.bindAll [⟨"u/1", ["A"], none⟩, ⟨"u/2", ["B"], none⟩, ⟨"v/1", ["C"], none⟩] .empty).1

/-- A reload that lists a row of the table twice, and a row outside the table. -/
def reload : List Binding := [⟨"u/2", ["D"], none⟩, ⟨"w/9", [], some "7"⟩, ⟨"u/2", ["A"], some "5"⟩]

/-- The row that is listed twice is bound as it is listed last, the row of the other table stays,
and the texts follow with two writes and one removal. -/
theorem replaceScope_exact_reload :
    let cache := (Cache.empty.merge [("A", ⟨0x4024000000000000⟩)]).1
    let r := twoTables.replaceScope "u/" reload cache
    (∃ row, r.board.row? "u/2" = some row ∧ row.toBinding = ⟨"u/2", ["A"], some "5"⟩) ∧
      r.board.row? "v/1" = some { id := "v/1", candidates := ["C"], shown := some "-" } ∧
      r.removed = ["u/1"] ∧ r.writes = [⟨"w/9", "-"⟩, ⟨"u/2", "10.00"⟩] ∧
      writeCells (removeCells twoTables.texts ["u/1"]) [⟨"w/9", "-"⟩, ⟨"u/2", "10.00"⟩] =
        r.board.texts := by
  intro cache r
  obtain ⟨-, hlast, houtside, -, htexts⟩ := replaceScope_exact twoTables cache "u/" reload
  have hremoved : r.removed = ["u/1"] := by decide +kernel
  have hwrites : r.writes = [⟨"w/9", "-"⟩, ⟨"u/2", "10.00"⟩] := by decide +kernel
  have hrow : twoTables.row? "v/1" =
      some { id := "v/1", candidates := ["C"], shown := some "-" } := by decide +kernel
  refine ⟨hlast (reload.take 2) ⟨"u/2", ["A"], some "5"⟩ [] rfl List.not_mem_nil,
    houtside "v/1" _ hrow (by decide) (by decide), hremoved, hwrites, ?_⟩
  rw [← hremoved, ← hwrites]
  exact htexts

end Board

end QuoteBoard
