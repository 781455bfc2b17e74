/-
# What a row shows anew

A row is shown anew in one way only: the text that is due goes into its cell. The
text that is due is the price of the first candidate with a price; where no candidate
has one it is the text that the cell holds already, and the placeholder in a cell that
has never been written. Rendering a row is displaying what is due, so all that a row
can do is said by two equations, one for its new state and one for its write.
-/

import QuoteBoard.Board.Row

namespace QuoteBoard

namespace Row

variable (r : Row) (cache : Cache)

/-- The text in the cell of a row. It is empty before the first write. -/
def cellText : String := r.shown.getD ""

/-- The text that a row shows when it is shown anew. -/
def due : String :=
  match cache.first? r.candidates with
  | some price => Price.text price
  | none => r.shown.getD placeholder

theorem due_of_price {price : Binary64} (hprice : cache.first? r.candidates = some price) :
    r.due cache = Price.text price := by
  simp only [due, hprice]

theorem due_of_no_price (hprice : cache.first? r.candidates = none) :
    r.due cache = r.shown.getD placeholder := by
  simp only [due, hprice]

/-- To display a text changes what the row shows and nothing else. -/
theorem display_fst (text : String) : (r.display text).1 = { r with shown := some text } := by
  unfold display
  split
  · next hsame => rw [← hsame]
  · rfl

/-- A cell is written only if its text changes. -/
theorem display_snd (text : String) :
    (r.display text).2 = if r.shown = some text then none else some ⟨r.id, text⟩ := by
  unfold display
  split <;> rfl

/-- A row is written in its own cell, and only if the text there is another. -/
theorem write_of_display {text : String} {w : Write} (hw : (r.display text).2 = some w) :
    r.shown ≠ some text ∧ w = ⟨r.id, text⟩ := by
  rw [display_snd] at hw
  split at hw
  · cases hw
  · next hchanged =>
      cases hw
      exact ⟨hchanged, rfl⟩

/-- To render a row is to display what is due. -/
theorem render_eq_display : r.render cache = r.display (r.due cache) := by
  unfold render due
  cases cache.first? r.candidates with
  | some price => rfl
  | none =>
      cases hshown : r.shown with
      | none => simp
      | some text => simp [display, hshown]

theorem write_of_render {w : Write} (hw : (r.render cache).2 = some w) :
    r.shown ≠ some w.text ∧ w.row = r.id := by
  rw [render_eq_display] at hw
  obtain ⟨hchanged, rfl⟩ := write_of_display r hw
  exact ⟨hchanged, rfl⟩

theorem render_fst : (r.render cache).1 = { r with shown := some (r.due cache) } := by
  rw [render_eq_display, display_fst]

/-- The row that a binding makes, shown anew over the text that its cell holds already. -/
def bound (binding : Binding) (inherited : Option String) : Row :=
  (render { toBinding := binding, shown := inherited } cache).1

theorem bound_toBinding (binding : Binding) (inherited : Option String) :
    (bound cache binding inherited).toBinding = binding := by
  rw [bound, render_fst]

theorem bound_shown (binding : Binding) (inherited : Option String) :
    (bound cache binding inherited).shown =
      some (due { toBinding := binding, shown := inherited } cache) := by
  rw [bound, render_fst]

/-- A row shows no price exactly if its cell is empty or holds the placeholder. -/
theorem isUnpriced_iff : r.isUnpriced = true ↔ r.shown = none ∨ r.shown = some placeholder := by
  simp [isUnpriced]

/-- A row that has just been bound shows no price exactly if the price of its candidates has no
text of its own, or if they have no price and the cell showed none before. -/
theorem isUnpriced_bound (binding : Binding) (inherited : Option String) :
    (bound cache binding inherited).isUnpriced = true ↔
      match cache.first? binding.candidates with
      | some price => Price.text price = placeholder
      | none => inherited = none ∨ inherited = some placeholder := by
  rw [isUnpriced_iff, bound_shown, due]
  cases cache.first? binding.candidates with
  | some price => simp
  | none => cases inherited <;> simp

/-- To show a bound row anew is to bind it anew over the same text, as long as no price is taken
away. -/
theorem due_bound {later : Cache} {binding : Binding} {inherited : Option String}
    (hkept : later.first? binding.candidates = none → cache.first? binding.candidates = none) :
    (bound cache binding inherited).due later =
      due { toBinding := binding, shown := inherited } later := by
  rw [due, bound_toBinding]
  cases hlater : later.first? binding.candidates with
  | some price => exact (due_of_price _ later hlater).symm
  | none =>
      rw [due_of_no_price _ later hlater, bound_shown, due_of_no_price _ cache (hkept hlater)]
      rfl

/-- A row looks up one of several keys exactly if they share a key with its candidates. -/
theorem references_iff {keys : List Key} :
    r.references keys = true ↔ ∃ k ∈ r.candidates, k ∈ keys := by
  simp [references]

end Row

end QuoteBoard
