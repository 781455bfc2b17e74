/-
# Cells that mirror the rows

Cells know nothing of the rows: they follow the removals and writes that each operation
answers with. They mirror a board when every name has in its cell what its row shows.
Whatever the operation, cells that mirrored the board before it mirror the board after
it, although an operation writes only the texts that change. The reason is the same for
each of them: a row is left alone, or a text is displayed in it, and a text that is
displayed without a write is the text that the cell holds already.
-/

import QuoteBoard.Proofs.Board.Desk

namespace QuoteBoard

/-- Put texts into cells, in order. -/
def writeCells (cells : TextMap String) (writes : List Write) : TextMap String :=
  writes.foldl (fun cells w => cells.insert w.row w.text) cells

/-- Take cells away. -/
def removeCells (cells : TextMap String) (ids : List RowId) : TextMap String :=
  ids.foldl TextMap.erase cells

/-- The cells after an operation. -/
def Performed.follow (p : Performed) (cells : TextMap String) : TextMap String :=
  writeCells (removeCells cells p.removed) p.writes

section Cells

variable (cells : TextMap String)

theorem writeCells_append (first second : List Write) :
    writeCells cells (first ++ second) = writeCells (writeCells cells first) second :=
  List.foldl_append

/-- A cell that no write names keeps its text. -/
theorem get?_writeCells_of_not_mem {writes : List Write} {id : RowId}
    (hid : ∀ w ∈ writes, w.row ≠ id) : (writeCells cells writes).get? id = cells.get? id := by
  induction writes generalizing cells with
  | nil => rfl
  | cons w rest ih =>
      have hne : id ≠ w.row := fun heq => hid w List.mem_cons_self heq.symm
      have hrest := ih (cells.insert w.row w.text) fun v hv => hid v (List.mem_cons_of_mem _ hv)
      exact hrest.trans (TextMap.get?_insert_of_ne hne)

/-- A cell that writes name holds their text if they agree on it. -/
theorem get?_writeCells_of_mem {writes : List Write} {id : RowId} {text : String}
    (hsome : ∃ w ∈ writes, w.row = id) (hall : ∀ w ∈ writes, w.row = id → w.text = text) :
    (writeCells cells writes).get? id = some text := by
  induction writes generalizing cells with
  | nil => simp at hsome
  | cons w rest ih =>
      by_cases hrest : ∃ v ∈ rest, v.row = id
      · exact ih (cells.insert w.row w.text) hrest fun v hv => hall v (List.mem_cons_of_mem _ hv)
      · have hlast : ∀ v ∈ rest, v.row ≠ id := fun v hv heq => hrest ⟨v, hv, heq⟩
        have hw : w.row = id := by
          obtain ⟨v, hv, heq⟩ := hsome
          rcases List.mem_cons.mp hv with rfl | hv
          · exact heq
          · exact absurd heq (hlast v hv)
        have hkept := get?_writeCells_of_not_mem (cells.insert w.row w.text) hlast
        refine hkept.trans ?_
        rw [← hw, TextMap.get?_insert_self, hall w List.mem_cons_self hw]

theorem get?_removeCells (ids : List RowId) (id : RowId) :
    (removeCells cells ids).get? id = if id ∈ ids then none else cells.get? id := by
  induction ids generalizing cells with
  | nil => rfl
  | cons removed rest ih =>
      have hcons : removeCells cells (removed :: rest) = removeCells (cells.erase removed) rest :=
        rfl
      rw [hcons, ih, TextMap.get?_erase]
      by_cases hrest : id ∈ rest <;> by_cases hid : id = removed <;> simp [hrest, hid]

end Cells

/-- Every name has in its cell what its row shows, and a name without a row has no cell. -/
def Mirrors (cells : TextMap String) (b : Board) : Prop :=
  ∀ id, cells.get? id = b.shownIn id

namespace Mirrors

variable {cells : TextMap String} {b : Board} {cache : Cache}

/-- To display a text in the cell of one name keeps cells and rows together. -/
theorem display_one (h : Mirrors cells b) {b' : Board} {row : RowId} {text : String}
    (hrow : b'.shownIn row = some text) (hothers : ∀ id, id ≠ row → b'.shownIn id = b.shownIn id) :
    Mirrors (writeCells cells
      (if b.shownIn row = some text then none else some (⟨row, text⟩ : Write)).toList) b' := by
  intro id
  by_cases hid : id = row
  · subst hid
    rw [hrow]
    by_cases hsame : b.shownIn id = some text
    · rw [if_pos hsame]
      exact (h id).trans hsame
    · rw [if_neg hsame]
      exact TextMap.get?_insert_self _ _ _
  · rw [hothers id hid, ← h id]
    apply get?_writeCells_of_not_mem
    intro w hw
    split at hw
    · simp at hw
    · rw [Option.toList_some, List.mem_singleton] at hw
      subst hw
      exact Ne.symm hid

theorem bind (h : Mirrors cells b) (x : Binding) :
    Mirrors (writeCells cells (b.bind x cache).2.toList) (b.bind x cache).1 := by
  have hwrite : (b.bind x cache).2 =
      if b.shownIn x.id = some (Row.due { toBinding := x, shown := b.shownIn x.id } cache)
      then none
      else some ⟨x.id, Row.due { toBinding := x, shown := b.shownIn x.id } cache⟩ := by
    have hrender : (b.bind x cache).2 =
      (Row.render { toBinding := x, shown := b.shownIn x.id } cache).2 := rfl
    rw [hrender, Row.render_eq_display, Row.display_snd]
  rw [hwrite]
  apply h.display_one
  · rw [Board.shownIn, Board.row?_bind, if_pos rfl]
    exact Row.bound_shown _ _ _
  · intro id hid
    rw [Board.shownIn, Board.row?_bind, if_neg hid]
    rfl

theorem bindAll (h : Mirrors cells b) (bindings : List Binding) :
    Mirrors (writeCells cells (b.bindAll bindings cache).2) (b.bindAll bindings cache).1 := by
  induction bindings generalizing cells b with
  | nil => exact h
  | cons x rest ih =>
      rw [Board.bindAll_cons, writeCells_append]
      exact ih (h.bind x)

theorem without (h : Mirrors cells b) (scope : String) (bindings : List Binding) :
    Mirrors (removeCells cells (b.rows.keys.filter (Board.leaves scope bindings)))
      (b.without scope bindings) := by
  intro id
  rw [get?_removeCells, Board.shownIn, Board.row?_without]
  cases hleaves : Board.leaves scope bindings id with
  | false =>
      have hnot : id ∉ b.rows.keys.filter (Board.leaves scope bindings) := by simp [hleaves]
      rw [if_neg hnot]
      exact h id
  | true =>
      simp only [List.mem_filter, hleaves, and_true, if_true, Option.bind_none]
      split
      · rfl
      · next hnot =>
          -- a name that leaves without being bound has no cell to begin with
          rw [h id, Board.shownIn]
          cases hrow : b.row? id with
          | none => rfl
          | some r => exact absurd (TextMap.mem_keys_iff.mpr ⟨r, hrow⟩) hnot

/-- The writes of a repainted board come from its own rows. -/
theorem mem_writes_repaint {test : Row → Prop} [DecidablePred test] {text : Row → String}
    (hnames : b.NamesRows) {w : Write} :
    w ∈ (b.repaint test text).2 ↔
      ∃ r, b.row? w.row = some r ∧ test r ∧ r.shown ≠ some (text r) ∧ w.text = text r := by
  have hwrite : ∀ r : Row, ((if test r then r.display (text r) else (r, none)).2 = some w ↔
      test r ∧ r.shown ≠ some (text r) ∧ w = ⟨r.id, text r⟩) := by
    intro r
    by_cases htest : test r <;> by_cases hsame : r.shown = some (text r) <;>
      simp [htest, hsame, Row.display_snd, eq_comm]
  simp only [Board.repaint, Board.change, List.mem_filterMap, Board.mem_values_iff hnames, hwrite]
  constructor
  · rintro ⟨r, hrow, htest, hne, rfl⟩
    exact ⟨r, hrow, htest, hne, rfl⟩
  · rintro ⟨r, hrow, htest, hne, htext⟩
    have hid := hnames _ r hrow
    refine ⟨r, hid.symm ▸ hrow, htest, hne, ?_⟩
    rw [← htext, hid]

theorem repaint (h : Mirrors cells b) (hnames : b.NamesRows) (test : Row → Prop)
    [DecidablePred test] (text : Row → String) :
    Mirrors (writeCells cells (b.repaint test text).2) (b.repaint test text).1 := by
  intro id
  rw [Board.shownIn, Board.row?_repaint]
  have hold := h id
  rw [Board.shownIn] at hold
  by_cases hwritten : ∃ w ∈ (b.repaint test text).2, w.row = id
  · obtain ⟨w, hw, rfl⟩ := hwritten
    obtain ⟨r, hrow, htest, -, -⟩ := (mem_writes_repaint hnames).mp hw
    have htext : ∀ v ∈ (b.repaint test text).2, v.row = w.row → v.text = text r := by
      intro v hv hvrow
      obtain ⟨s, hs, -, -, hvtext⟩ := (mem_writes_repaint hnames).mp hv
      rw [hvrow, hrow] at hs
      cases hs
      exact hvtext
    rw [get?_writeCells_of_mem cells ⟨w, hw, rfl⟩ htext, hrow]
    simp only [Option.map_some, if_pos htest, Option.bind_some]
  · have hkept : ∀ w ∈ (b.repaint test text).2, w.row ≠ id := fun w hw heq =>
      hwritten ⟨w, hw, heq⟩
    rw [get?_writeCells_of_not_mem cells hkept, hold]
    cases hrow : b.row? id with
    | none => rfl
    | some r =>
        simp only [Option.map_some, Option.bind_some]
        split
        · next htest =>
            -- no write although the text is displayed: it is in the cell already
            by_contra hne
            exact hwritten ⟨⟨id, text r⟩, (mem_writes_repaint hnames).mpr
              ⟨r, hrow, htest, hne, rfl⟩, rfl⟩
        · rfl

theorem attach (h : Mirrors cells b) (hnames : b.NamesRows) (row : RowId)
    (scrip : Option String) (key : Key) :
    Mirrors (writeCells cells (b.attach row scrip key cache).2.toList)
      (b.attach row scrip key cache).1 := by
  cases hrow : b.row? row with
  | none =>
      rw [Board.attach_of_unbound b cache hrow]
      exact h
  | some r =>
      have hshown : b.shownIn row = (Board.resolved r scrip key).shown := by
        rw [Board.shownIn, hrow]
        rfl
      have hid : (Board.resolved r scrip key).id = row := hnames row r hrow
      have hwrite : (b.attach row scrip key cache).2 =
          if b.shownIn row = some ((Board.resolved r scrip key).due cache) then none
          else some ⟨row, (Board.resolved r scrip key).due cache⟩ := by
        rw [Board.attach_of_bound b cache hrow, Row.render_eq_display, Row.display_snd, hshown, hid]
      rw [hwrite]
      apply h.display_one
      · rw [Board.shownIn, Board.row?_attach, if_pos rfl, hrow]
        rfl
      · intro id hne
        rw [Board.shownIn, Board.row?_attach, if_neg hne]
        rfl

/-- **Cells stay with the rows.** Whatever the operation, its removals and writes take cells that
mirror the board before it to cells that mirror the board after it. -/
theorem perform {d : Desk} (h : Mirrors cells d.board) (hnames : d.board.NamesRows)
    (op : Operation) : Mirrors ((d.perform op).follow cells) (d.perform op).desk.board := by
  cases op with
  | bind x => exact h.bind x
  | replaceScope scope bindings => exact (h.without scope bindings).bindAll bindings
  | merge batch =>
      have hrepaint := h.repaint hnames (fun r => r.references (d.cache.merge batch).2 = true)
        fun r => r.due (d.cache.merge batch).1
      rw [← Board.refresh_eq_repaint] at hrepaint
      exact hrepaint
  | attach row scrip key => exact h.attach hnames row scrip key
  | tick code price =>
      have hrepaint := h.repaint hnames (fun r => r.scrip = some code) fun _ =>
        Board.tickText price
      rw [← Board.tick_eq_repaint] at hrepaint
      exact hrepaint

end Mirrors

end QuoteBoard
