/-
# The row of a name after each operation

A board is described by its rows: each operation is said by the row that it leaves
under a name. A binding makes the row of its own name and touches no other. Of several
bindings of one name the last one stays, and it takes over the text that the cell held
just before it. To replace the rows of a scope is to drop those that are not listed and
then to bind the list. The other operations change rows where they are.
-/

import QuoteBoard.Board.Basic
import QuoteBoard.Proofs.Board.Row
import QuoteBoard.Proofs.Lists
import QuoteBoard.Proofs.Price.Cache

namespace QuoteBoard

/-- The last of several bindings of a name. -/
def lastBinding? (bindings : List Binding) (id : RowId) : Option Binding :=
  bindings.reverse.find? fun x => x.id = id

theorem lastBinding?_cons (x : Binding) (rest : List Binding) (id : RowId) :
    lastBinding? (x :: rest) id =
      (lastBinding? rest id).or (if x.id = id then some x else none) := by
  unfold lastBinding?
  rw [List.reverse_cons, List.find?_append]
  by_cases hx : x.id = id <;> simp [hx]

theorem lastBinding?_isSome_iff {bindings : List Binding} {id : RowId} :
    (lastBinding? bindings id).isSome = true ↔ id ∈ bindings.map Binding.id := by
  simp [lastBinding?]

theorem lastBinding?_eq_none_iff {bindings : List Binding} {id : RowId} :
    lastBinding? bindings id = none ↔ id ∉ bindings.map Binding.id := by
  rw [← lastBinding?_isSome_iff]
  cases lastBinding? bindings id <;> simp

theorem id_of_lastBinding? {bindings : List Binding} {id : RowId} {x : Binding}
    (hx : lastBinding? bindings id = some x) : x.id = id := by
  simpa using List.find?_some hx

namespace Board

variable (b : Board) (cache : Cache)

/-- The text in the cell of a name. -/
def shownIn (id : RowId) : Option String := (b.row? id).bind Row.shown

/-- Rows are kept under their own names. -/
def NamesRows : Prop := ∀ id r, b.row? id = some r → r.id = id

/-- The text that the last binding of a name finds in the cell. -/
def inherited (b : Board) (cache : Cache) (id : RowId) : List Binding → Option String
  | [] => b.shownIn id
  | x :: rest =>
    if id ∈ rest.map Binding.id then inherited (b.bind x cache).1 cache id rest
    else b.shownIn id

/-! ## Bindings -/

theorem bind_fst (x : Binding) :
    (b.bind x cache).1 = ⟨b.rows.insert x.id (Row.bound cache x (b.shownIn x.id))⟩ := by
  have hid : (Row.bound cache x (b.shownIn x.id)).id = x.id := by rw [Row.bound_toBinding]
  change (⟨b.rows.insert (Row.bound cache x (b.shownIn x.id)).id
    (Row.bound cache x (b.shownIn x.id))⟩ : Board) = _
  rw [hid]

/-- A binding makes the row of its own name and leaves every other row alone. -/
theorem row?_bind (x : Binding) (id : RowId) :
    (b.bind x cache).1.row? id =
      if id = x.id then some (Row.bound cache x (b.shownIn x.id)) else b.row? id := by
  rw [bind_fst]
  exact TextMap.get?_insert _ _ _ _

private theorem bindAll_go (bindings : List Binding) (writes : List Write) :
    bindings.foldl (fun (acc : Board × List Write) x =>
      ((acc.1.bind x cache).1, acc.2 ++ (acc.1.bind x cache).2.toList)) (b, writes) =
      ((b.bindAll bindings cache).1, writes ++ (b.bindAll bindings cache).2) := by
  induction bindings generalizing b writes with
  | nil => simp [bindAll]
  | cons x rest ih =>
      have hcons := ih (b.bind x cache).1 (b.bind x cache).2.toList
      simp only [bindAll, List.foldl_cons, List.nil_append] at hcons ⊢
      rw [hcons, ih]
      simp only [bindAll, List.append_assoc]

theorem bindAll_cons (x : Binding) (rest : List Binding) :
    b.bindAll (x :: rest) cache =
      (((b.bind x cache).1.bindAll rest cache).1,
        (b.bind x cache).2.toList ++ ((b.bind x cache).1.bindAll rest cache).2) :=
  bindAll_go (b.bind x cache).1 cache rest (b.bind x cache).2.toList

/-- Of several bindings of a name the last one stays, over the text that it finds. -/
theorem row?_bindAll (bindings : List Binding) (id : RowId) :
    (b.bindAll bindings cache).1.row? id =
      match lastBinding? bindings id with
      | some x => some (Row.bound cache x (b.inherited cache id bindings))
      | none => b.row? id := by
  induction bindings generalizing b with
  | nil => rfl
  | cons x rest ih =>
      rw [bindAll_cons, ih, lastBinding?_cons]
      cases hrest : lastBinding? rest id with
      | some y =>
          have hmem : id ∈ rest.map Binding.id := lastBinding?_isSome_iff.mp (by simp [hrest])
          simp only [Option.some_or, inherited, if_pos hmem]
      | none =>
          have hmem : id ∉ rest.map Binding.id := lastBinding?_eq_none_iff.mp hrest
          by_cases hx : x.id = id
          · subst hx
            simp only [row?_bind, if_true, Option.none_or, inherited, if_neg hmem]
          · simp only [row?_bind, if_neg hx, if_neg (Ne.symm hx), Option.none_or]

/-- What a binding finds in the cell of a name depends on that cell alone. -/
theorem inherited_congr {b' : Board} {id : RowId} (hcell : b.shownIn id = b'.shownIn id)
    (bindings : List Binding) :
    b.inherited cache id bindings = b'.inherited cache id bindings := by
  induction bindings generalizing b b' with
  | nil => exact hcell
  | cons x rest ih =>
      unfold inherited
      by_cases hmem : id ∈ rest.map Binding.id
      · rw [if_pos hmem, if_pos hmem]
        apply ih
        unfold shownIn at hcell ⊢
        by_cases hx : id = x.id
        · subst hx
          simp only [row?_bind, if_true, shownIn, hcell]
        · simp only [row?_bind, if_neg hx, hcell]
      · rw [if_neg hmem, if_neg hmem, hcell]

/-! ## Replacing the rows of a scope -/

/-- A row leaves when its scope is replaced by rows without one of its name. -/
def leaves (scope : String) (bindings : List Binding) (id : RowId) : Bool :=
  Text.startsWith scope id && !(bindings.map Binding.id).contains id

/-- The board without the rows that leave. -/
def without (scope : String) (bindings : List Binding) : Board :=
  ⟨b.rows.filterKeys fun id => !leaves scope bindings id⟩

theorem replaceScope_eq (scope : String) (bindings : List Binding) :
    b.replaceScope scope bindings cache =
      { board := ((b.without scope bindings).bindAll bindings cache).1
        writes := ((b.without scope bindings).bindAll bindings cache).2
        removed := b.rows.keys.filter (leaves scope bindings) } := rfl

theorem row?_without (scope : String) (bindings : List Binding) (id : RowId) :
    (b.without scope bindings).row? id =
      if leaves scope bindings id then none else b.row? id := by
  have hfilter := b.rows.get?_filterKeys (fun j => !leaves scope bindings j) id
  cases hleaves : leaves scope bindings id <;> simpa [without, row?, hleaves] using hfilter

theorem leaves_eq_false_of_mem {scope : String} {bindings : List Binding} {id : RowId}
    (hid : id ∈ bindings.map Binding.id) : leaves scope bindings id = false := by
  have hcontains : (bindings.map Binding.id).contains id = true := by simpa using hid
  rw [leaves, hcontains, Bool.not_true, Bool.and_false]

/-- **The rows after a replacement.** A listed name has the last row listed under it, over the text
that the cell held just before; of the other names those under the scope have no row any more,
and the rest keep theirs. -/
theorem row?_replaceScope (scope : String) (bindings : List Binding) (id : RowId) :
    (b.replaceScope scope bindings cache).board.row? id =
      match lastBinding? bindings id with
      | some x => some (Row.bound cache x (b.inherited cache id bindings))
      | none => if Text.startsWith scope id then none else b.row? id := by
  rw [replaceScope_eq, row?_bindAll]
  cases hlast : lastBinding? bindings id with
  | some x =>
      have hmem : id ∈ bindings.map Binding.id := lastBinding?_isSome_iff.mp (by simp [hlast])
      have hcell : (b.without scope bindings).shownIn id = b.shownIn id := by
        unfold shownIn
        rw [row?_without, leaves_eq_false_of_mem hmem]
        rfl
      simp only [inherited_congr _ _ hcell]
  | none =>
      have hcontains : (bindings.map Binding.id).contains id = false := by
        simpa using lastBinding?_eq_none_iff.mp hlast
      simp only [row?_without, leaves, hcontains, Bool.not_false, Bool.and_true]

/-! ## Changing rows where they are -/

/-- Display a text in every row that passes a test. -/
def repaint (test : Row → Prop) [DecidablePred test] (text : Row → String) :
    Board × List Write :=
  b.change fun r => if test r then r.display (text r) else (r, none)

/-- A row that passes the test shows the text, and every other row stays as it is. -/
theorem row?_repaint (test : Row → Prop) [DecidablePred test] (text : Row → String)
    (id : RowId) :
    (b.repaint test text).1.row? id =
      (b.row? id).map fun r => if test r then { r with shown := some (text r) } else r := by
  have hmap := b.rows.get?_map (fun r => (if test r then r.display (text r) else (r, none)).1) id
  refine hmap.trans (congrArg (fun f => (b.row? id).map f) (funext fun r => ?_))
  split
  · exact Row.display_fst r (text r)
  · rfl

/-- A refresh displays what is due in the rows that look up one of the keys. -/
theorem refresh_eq_repaint (keys : List Key) :
    b.refresh cache keys = b.repaint (fun r => r.references keys = true) fun r => r.due cache := by
  unfold refresh repaint
  congr 1
  funext r
  rw [Row.render_eq_display]

/-- The text that a tick shows. -/
def tickText (price : Option Binary64) : String := (price.map Price.text).getD placeholder

/-- A tick displays its text in the rows that carry its code. -/
theorem tick_eq_repaint (code : String) (price : Option Binary64) :
    b.tick code price = b.repaint (fun r => r.scrip = some code) fun _ => tickText price := rfl

/-- A row that carries the code shows the text of the tick, and every other row stays as it is. -/
theorem row?_tick (code : String) (price : Option Binary64) (id : RowId) :
    (b.tick code price).1.row? id =
      (b.row? id).map fun r =>
        if r.scrip = some code then { r with shown := some (tickText price) } else r := by
  rw [tick_eq_repaint]
  exact row?_repaint b _ _ id

/-- A row with a resolved contract, before it is shown anew. -/
def resolved (r : Row) (scrip : Option String) (key : Key) : Row :=
  { r with
    scrip := scrip <|> r.scrip
    candidates := if r.candidates.contains key then r.candidates else r.candidates ++ [key] }

theorem attach_of_bound {row : RowId} {r : Row} (hrow : b.row? row = some r)
    (scrip : Option String) (key : Key) :
    b.attach row scrip key cache =
      (⟨b.rows.insert row ((resolved r scrip key).render cache).1⟩,
        ((resolved r scrip key).render cache).2) := by
  unfold attach
  rw [hrow]
  rfl

theorem attach_of_unbound {row : RowId} (hrow : b.row? row = none)
    (scrip : Option String) (key : Key) : b.attach row scrip key cache = (b, none) := by
  unfold attach
  rw [hrow]

/-- What is attached to a row concerns that row alone, which is shown anew. -/
theorem row?_attach (row : RowId) (scrip : Option String) (key : Key) (id : RowId) :
    (b.attach row scrip key cache).1.row? id =
      if id = row then
        (b.row? row).map fun r =>
          { resolved r scrip key with shown := some ((resolved r scrip key).due cache) }
      else b.row? id := by
  cases hrow : b.row? row with
  | none =>
      rw [attach_of_unbound b cache hrow]
      by_cases hid : id = row
      · subst hid
        simpa using hrow
      · rw [if_neg hid]
  | some r =>
      rw [attach_of_bound b cache hrow, Row.render_fst]
      exact TextMap.get?_insert _ _ _ _

/-! ## Names -/

theorem namesRows_empty : empty.NamesRows := by
  intro id r hr
  cases hr

variable {b}

/-- The rows that a board lists are those that it has under their names. -/
theorem mem_values_iff (h : b.NamesRows) {r : Row} :
    r ∈ b.rows.values ↔ b.row? r.id = some r := by
  rw [TextMap.values, List.mem_map]
  constructor
  · rintro ⟨⟨id, r'⟩, hmem, rfl⟩
    have hrow : b.row? id = some r' := TextMap.get?_eq_some_iff_mem.mpr hmem
    rw [h id r' hrow]
    exact hrow
  · intro hrow
    exact ⟨(r.id, r), TextMap.get?_eq_some_iff_mem.mp hrow, rfl⟩

/-- A change of rows writes each of them once at most, in the order of their names. -/
theorem rows_writes_change_sublist (h : b.NamesRows) {f : Row → Row × Option Write}
    (hf : ∀ r w, (f r).2 = some w → w.row = r.id) :
    ((b.change f).2.map Write.row).Sublist b.rows.keys := by
  rw [change, List.map_filterMap, TextMap.values, List.filterMap_map]
  apply filterMap_sublist_map
  intro p hp id hid
  obtain ⟨w, hw, rfl⟩ := Option.map_eq_some_iff.mp hid
  rw [hf p.2 w hw]
  exact h p.1 p.2 (TextMap.get?_eq_some_iff_mem.mpr hp)

theorem nodup_rows_writes_change (h : b.NamesRows) {f : Row → Row × Option Write}
    (hf : ∀ r w, (f r).2 = some w → w.row = r.id) :
    ((b.change f).2.map Write.row).Nodup := by
  exact b.rows.nodup_keys.sublist (rows_writes_change_sublist h hf)

theorem nodup_rows_writes_repaint (h : b.NamesRows) (test : Row → Prop) [DecidablePred test]
    (text : Row → String) : ((b.repaint test text).2.map Write.row).Nodup := by
  apply nodup_rows_writes_change h
  intro r w hw
  split at hw
  · rw [(Row.write_of_display r hw).2]
  · cases hw

/-- The names listed as unpriced are those under the scope whose rows show no price. -/
theorem mem_unpriced_iff (h : b.NamesRows) {scope : String} {id : RowId} :
    id ∈ b.unpriced scope ↔
      ∃ r, b.row? id = some r ∧ Text.startsWith scope id = true ∧ r.isUnpriced = true := by
  simp only [unpriced, List.mem_map, List.mem_filter, mem_values_iff h, Bool.and_eq_true]
  constructor
  · rintro ⟨r, ⟨hrow, hscope, hunpriced⟩, rfl⟩
    exact ⟨r, hrow, hscope, hunpriced⟩
  · rintro ⟨r, hrow, hscope, hunpriced⟩
    have hid := h id r hrow
    subst hid
    exact ⟨r, ⟨hrow, hscope, hunpriced⟩, rfl⟩

/-- No name is listed twice as unpriced. -/
theorem nodup_unpriced (h : b.NamesRows) (scope : String) : (b.unpriced scope).Nodup := by
  have hkeys : b.rows.values.map (·.id) = b.rows.keys := by
    rw [TextMap.values, TextMap.keys, List.map_map]
    exact List.map_congr_left fun p hp => h p.1 p.2 (TextMap.get?_eq_some_iff_mem.mpr hp)
  have hnames : (b.rows.values.map (·.id)).Nodup := by
    rw [hkeys]
    exact b.rows.nodup_keys
  exact hnames.sublist (List.filter_sublist.map _)

theorem NamesRows.bindAll (h : b.NamesRows) (bindings : List Binding) :
    (b.bindAll bindings cache).1.NamesRows := by
  intro id r hr
  rw [row?_bindAll] at hr
  cases hlast : lastBinding? bindings id with
  | none => exact h id r (by simpa [hlast] using hr)
  | some x =>
      rw [hlast] at hr
      cases hr
      rw [Row.bound_toBinding]
      exact id_of_lastBinding? hlast

theorem NamesRows.without (h : b.NamesRows) (scope : String) (bindings : List Binding) :
    (b.without scope bindings).NamesRows := by
  intro id r hr
  rw [row?_without] at hr
  split at hr
  · cases hr
  · exact h id r hr

theorem NamesRows.repaint (h : b.NamesRows) (test : Row → Prop) [DecidablePred test]
    (text : Row → String) : (b.repaint test text).1.NamesRows := by
  intro id r hr
  rw [row?_repaint, Option.map_eq_some_iff] at hr
  obtain ⟨before, hbefore, rfl⟩ := hr
  split <;> exact h id before hbefore

theorem NamesRows.attach (h : b.NamesRows) (row : RowId) (scrip : Option String) (key : Key) :
    (b.attach row scrip key cache).1.NamesRows := by
  intro id r hr
  rw [row?_attach] at hr
  split at hr
  · next hid =>
      obtain ⟨before, hbefore, rfl⟩ := Option.map_eq_some_iff.mp hr
      subst hid
      exact h _ before hbefore
  · exact h id r hr

end Board

end QuoteBoard
