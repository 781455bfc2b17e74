/-
# No write is redundant

A cell is written only where its text changes: each write of a list finds in its cell
another text than the one it brings, or no text at all, even if writes before it in the
list have gone to the same cell. The rows decide about writes by the texts that they
remember, so what has to be known is that the cells mirror the rows where a write is
decided on.
-/

import QuoteBoard.Proofs.Board.Mirror

namespace QuoteBoard

universe u v

/-- Each member of a list passes a test in the state that the members before it have led to. -/
def Along {α : Type u} {σ : Type v} (step : σ → α → σ) (test : σ → α → Prop) (s : σ)
    (xs : List α) : Prop :=
  ∀ before x after, xs = before ++ x :: after → test (before.foldl step s) x

namespace Along

variable {α : Type u} {σ : Type v} {step : σ → α → σ} {test : σ → α → Prop} {s : σ}

theorem nil : Along step test s [] := by
  intro before x after hsplit
  cases before <;> cases hsplit

theorem append {first second : List α} (h : Along step test s first)
    (hsecond : Along step test (first.foldl step s) second) :
    Along step test s (first ++ second) := by
  intro before x after hsplit
  rcases List.append_eq_append_iff.mp hsplit with ⟨more, rfl, hmore⟩ | ⟨more, hfirst, hmore⟩
  · rw [List.foldl_append]
    exact hsecond more x after hmore
  · cases more with
    | nil =>
        rw [List.append_nil] at hfirst
        subst hfirst
        exact hsecond [] x after hmore.symm
    | cons y more =>
        obtain ⟨rfl, -⟩ := List.cons.inj hmore
        exact h before x more hfirst

end Along

/-- Each write changes the text of its cell, as the writes before it have left it, or makes the
cell. -/
def Changing : TextMap String → List Write → Prop :=
  Along (fun cells w => cells.insert w.row w.text) fun cells w => cells.get? w.row ≠ some w.text

namespace Changing

variable {cells : TextMap String}

/-- Writes to different cells change them if each changes its cell as it was to begin with. -/
theorem of_nodup {writes : List Write} (hnodup : (writes.map Write.row).Nodup)
    (hchanges : ∀ w ∈ writes, cells.get? w.row ≠ some w.text) : Changing cells writes := by
  rintro before w after rfl
  have huntouched : ∀ v ∈ before, v.row ≠ w.row := by
    intro v hv
    rw [List.map_append, List.nodup_append] at hnodup
    exact hnodup.2.2 v.row (List.mem_map_of_mem hv) w.row List.mem_cons_self
  show (writeCells cells before).get? w.row ≠ some w.text
  rw [get?_writeCells_of_not_mem cells huntouched]
  exact hchanges w (List.mem_append_right before List.mem_cons_self)

theorem of_option {write : Option Write}
    (hchanges : ∀ w, write = some w → cells.get? w.row ≠ some w.text) :
    Changing cells write.toList := by
  apply of_nodup
  · cases write <;> simp
  · exact fun w hw => hchanges w (Option.mem_toList.mp hw)

end Changing

namespace Mirrors

variable {cells : TextMap String} {b : Board} {cache : Cache}

theorem changing_bind (h : Mirrors cells b) (x : Binding) :
    Changing cells (b.bind x cache).2.toList := by
  apply Changing.of_option
  intro w hw
  obtain ⟨hchanged, hrow⟩ :=
    Row.write_of_render { toBinding := x, shown := b.shownIn x.id } cache hw
  rw [hrow, h x.id]
  exact hchanged

/-- The same name may be bound again and again: each binding finds what the one before has left. -/
theorem changing_bindAll (h : Mirrors cells b) (bindings : List Binding) :
    Changing cells (b.bindAll bindings cache).2 := by
  induction bindings generalizing cells b with
  | nil => exact Along.nil
  | cons x rest ih =>
      rw [Board.bindAll_cons]
      exact Along.append (h.changing_bind x) (ih (h.bind x))

theorem changing_repaint (h : Mirrors cells b) (hnames : b.NamesRows) (test : Row → Prop)
    [DecidablePred test] (text : Row → String) : Changing cells (b.repaint test text).2 := by
  apply Changing.of_nodup (Board.nodup_rows_writes_repaint hnames test text)
  intro w hw
  obtain ⟨r, hrow, -, hchanged, htext⟩ := (mem_writes_repaint hnames).mp hw
  rw [h w.row, Board.shownIn, hrow, htext]
  exact hchanged

theorem changing_attach (h : Mirrors cells b) (hnames : b.NamesRows) (row : RowId)
    (scrip : Option String) (key : Key) :
    Changing cells (b.attach row scrip key cache).2.toList := by
  apply Changing.of_option
  intro w hw
  cases hrow : b.row? row with
  | none =>
      rw [Board.attach_of_unbound b cache hrow] at hw
      cases hw
  | some r =>
      rw [Board.attach_of_bound b cache hrow] at hw
      obtain ⟨hchanged, hid⟩ := Row.write_of_render _ cache hw
      have hname : (Board.resolved r scrip key).id = row := hnames row r hrow
      rw [hid, hname, h row, Board.shownIn, hrow]
      exact hchanged

/-- **No operation writes a text that is there already.** The writes of an operation change the
cells that its removals have left. -/
theorem changing_perform {d : Desk} (h : Mirrors cells d.board) (hnames : d.board.NamesRows)
    (op : Operation) :
    Changing (removeCells cells (d.perform op).removed) (d.perform op).writes := by
  cases op with
  | bind x => exact h.changing_bind x
  | replaceScope scope bindings => exact (h.without scope bindings).changing_bindAll bindings
  | merge batch =>
      have hrepaint := h.changing_repaint hnames
        (fun r => r.references (d.cache.merge batch).2 = true)
        fun r => r.due (d.cache.merge batch).1
      rw [← Board.refresh_eq_repaint] at hrepaint
      exact hrepaint
  | attach row scrip key => exact h.changing_attach hnames row scrip key
  | tick code price =>
      have hrepaint := h.changing_repaint hnames (fun r => r.scrip = some code) fun _ =>
        Board.tickText price
      rw [← Board.tick_eq_repaint] at hrepaint
      exact hrepaint

end Mirrors

end QuoteBoard
