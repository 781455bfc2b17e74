/-
# Tables apart

The rows of a table are known by the start of their names alone, `user/table/`. As a user may
have any name, one that contains slashes can continue the start of another user's table, and
then the two tables are not apart: to load the one takes rows of the other away. Two tables
are apart exactly if neither user's name goes on with the other user's table.
-/

import QuoteBoard.Backend.Record
import QuoteBoard.Proofs.Board.Scope
import QuoteBoard.Proofs.Dashboard.Resolution
import QuoteBoard.Settings.Rules

namespace QuoteBoard.Dashboard

open QuoteBoard.Backend (tradeRows)
open QuoteBoard.Engine (Command Effect Instant Past State carries_replaceRows cellEffects
  stateAfter)
open QuoteBoard.Json (Value)

/-- The cell that an effect writes into or takes away. -/
def cellOf? : Effect → Option RowId
  | .write w => some w.row
  | .remove row => some row
  | .measure _ | .startSession | .startFetch .. | .reply .. => none

/-- A command leaves the row of a name and its cell as they are. -/
structure Spares (s : State) (now : Instant) (c : Command) (id : RowId) : Prop where
  row : (s.step now (.command c)).1.board.row? id = s.board.row? id
  cell : ∀ effect ∈ (s.step now (.command c)).2, cellOf? effect ≠ some id

/-- The bindings of a table for what the backend sends as its rows. -/
def bindingsIn (user : String) (table : Table) (payload : Value) : List Binding :=
  tableBindings user table (tradeRows payload)

/-- A table leaves another one alone: whatever the backend sends as the rows of the two, and
whatever an engine has handled, to load the one binds no row of the other, spares every row of it
that is bound, and never finds one of them unpriced. -/
def LeavesAlone (user : String) (table : Table) (other : String) (otherTable : Table) : Prop :=
  ∀ (payload otherPayload : Value) (period : Nat) (started now : Instant) (past : Past),
    let s := stateAfter period started past
    ∀ id ∈ (bindingsIn other otherTable otherPayload).map Binding.id,
      (s.board.row? id).isSome = true →
        id ∉ (bindingsIn user table payload).map Binding.id ∧
        Spares s now (.replaceRows (tableScope user table) (bindingsIn user table payload)) id ∧
        id ∉ s.board.unpriced (tableScope user table)

/-- Two tables leave each other alone. -/
def Apart (user : String) (table : Table) (other : String) (otherTable : Table) : Prop :=
  LeavesAlone user table other otherTable ∧ LeavesAlone other otherTable user table

/-- The name of the other user goes on with a table of the user: with the slash after it, it
starts with the scope of that table. -/
def Continues (other user : String) (table : Table) : Prop :=
  Text.startsWith (tableScope user table) (other ++ "/") = true

instance (other user : String) (table : Table) : Decidable (Continues other user table) :=
  inferInstanceAs (Decidable (_ = true))

/-! ## Scopes -/

/-- What follows a user's name in the names of a table's rows. -/
def ending (table : Table) : List Char := '/' :: table.name.toList ++ ['/']

theorem toList_tableScope (user : String) (table : Table) :
    (tableScope user table).toList = user.toList ++ ending table := by
  simp [tableScope, ending]

theorem length_ending (table : Table) : (ending table).length = 10 := by
  cases table <;> decide

/-- The names of tables have no slash inside. -/
theorem getElem?_ending (table : Table) : ∀ place < 9, 0 < place →
    (ending table)[place]? ≠ some '/' := by
  cases table <;> decide

theorem eq_of_ending_le {table other : Table} (h : ending table <+: ending other) :
    table = other := by
  revert h
  cases table <;> cases other <;> decide

/-- The slash that ends a name begins an ending, so an ending that begins inside another text
covers it and the slash after it. -/
theorem ending_le_concat {table otherTable : Table} {more : List Char}
    (h : ending table <+: more ++ ending otherTable) (hmore : more = [] → table ≠ otherTable) :
    ending table <+: more ++ ['/'] := by
  rcases Nat.lt_or_ge more.length 9 with hshort | hlong
  · exfalso
    cases more with
    | nil => exact hmore rfl (eq_of_ending_le h)
    | cons c more =>
        have hinside : (c :: more).length < (ending table).length := by
          rw [length_ending]
          omega
        have hslash : (ending table)[(c :: more).length]? = some '/' := by
          rw [List.getElem?_eq_getElem hinside, ← List.prefix_iff_getElem?.mp h _ hinside,
            List.getElem?_append_right (Nat.le_refl _), Nat.sub_self]
          rfl
        exact getElem?_ending table _ hshort (Nat.succ_pos _) hslash
  · have hslash : more ++ ['/'] <+: more ++ ending otherTable :=
      (List.prefix_append_right_inj more).mpr (List.prefix_append ['/'] _)
    apply List.prefix_of_prefix_length_le h hslash
    rw [length_ending, List.length_append, List.length_singleton]
    omega

/-- If the rows of one table lie under the scope of another, the name of the one's user goes on
with the other table. -/
theorem continues_of_scope_le {user other : String} {table otherTable : Table}
    (hdistinct : (user, table) ≠ (other, otherTable))
    (h : (tableScope user table).toList <+: (tableScope other otherTable).toList) :
    Continues other user table := by
  have hlength := h.length_le
  rw [toList_tableScope, toList_tableScope] at h
  simp only [toList_tableScope, List.length_append, length_ending] at hlength
  have hname : user.toList <+: other.toList := by
    apply List.prefix_of_prefix_length_le ((List.prefix_append _ _).trans h)
    · exact List.prefix_append _ _
    · omega
  obtain ⟨more, hother⟩ := hname
  have hmore : more = [] → table ≠ otherTable := by
    rintro rfl rfl
    rw [List.append_nil] at hother
    exact hdistinct (by rw [String.toList_inj.mp hother])
  rw [← hother, List.append_assoc, List.prefix_append_right_inj] at h
  rw [Continues, Text.startsWith_iff, toList_tableScope, String.toList_append, ← hother,
    List.append_assoc, List.prefix_append_right_inj]
  exact ending_le_concat h hmore

theorem scope_le_of_continues {user other : String} {table : Table}
    (h : Continues other user table) (otherTable : Table) :
    (tableScope user table).toList <+: (tableScope other otherTable).toList := by
  rw [Continues, Text.startsWith_iff, String.toList_append] at h
  rw [toList_tableScope other]
  exact h.trans ((List.prefix_append_right_inj _).mpr (List.prefix_append ['/'] _))

/-! ## Tables that are apart -/

section Apart

variable {user other : String} {table otherTable : Table} {id : RowId}

theorem startsWith_of_mem_bindingsIn {payload : Value}
    (hid : id ∈ (bindingsIn user table payload).map Binding.id) :
    Text.startsWith (tableScope user table) id = true :=
  startsWith_of_mem_nameRows hid

/-- No name lies under two scopes that are apart. -/
theorem not_startsWith_of_apart (hdistinct : (user, table) ≠ (other, otherTable))
    (hother : ¬ Continues other user table) (huser : ¬ Continues user other otherTable)
    (hid : Text.startsWith (tableScope other otherTable) id = true) :
    Text.startsWith (tableScope user table) id = false := by
  rw [← Bool.not_eq_true]
  intro hboth
  rw [Text.startsWith_iff] at hid hboth
  rcases List.prefix_or_prefix_of_prefix hboth hid with hle | hle
  · exact hother (continues_of_scope_le hdistinct hle)
  · exact huser (continues_of_scope_le hdistinct.symm hle)

theorem isOnCells_of_cellOf? {effect : Effect} (hcell : cellOf? effect = some id) :
    effect.isOnCells = true := by
  cases effect with
  | write | remove => rfl
  | measure | startSession | startFetch | reply => cases hcell

/-- To replace the rows of a scope spares every name that lies outside and is not listed. -/
theorem spares_of_outside (s : State) (now : Instant) {scope : String} {bindings : List Binding}
    (hscope : Text.startsWith scope id = false) (hid : id ∉ bindings.map Binding.id) :
    Spares s now (.replaceRows scope bindings) id where
  row := s.board.row?_replaceScope_of_outside s.cache hscope hid
  cell := by
    intro effect heffect hcell
    have honcells : effect ∈ cellEffects (s.desk.perform (.replaceScope scope bindings)) := by
      rw [← (carries_replaceRows s scope bindings).cells]
      exact List.mem_filter.mpr ⟨heffect, isOnCells_of_cellOf? hcell⟩
    rcases List.mem_append.mp honcells with hremoved | hwritten
    · obtain ⟨removed, hmem, rfl⟩ := List.mem_map.mp hremoved
      cases hcell
      rw [s.board.startsWith_of_mem_removed s.cache hmem] at hscope
      cases hscope
    · obtain ⟨w, hmem, rfl⟩ := List.mem_map.mp hwritten
      cases hcell
      exact hid (s.board.row_of_mem_writes_replaceScope s.cache hmem)

/-- A table whose scope is apart from that of another leaves it alone. -/
theorem leavesAlone_of_apart (hdistinct : (user, table) ≠ (other, otherTable))
    (hother : ¬ Continues other user table) (huser : ¬ Continues user other otherTable) :
    LeavesAlone user table other otherTable := by
  intro payload otherPayload period started now past s id hid _
  have hscope : Text.startsWith (tableScope user table) id = false :=
    not_startsWith_of_apart hdistinct hother huser (startsWith_of_mem_bindingsIn hid)
  have hnot : id ∉ (bindingsIn user table payload).map Binding.id := by
    intro hmem
    rw [startsWith_of_mem_bindingsIn hmem] at hscope
    cases hscope
  refine ⟨hnot, spares_of_outside s now hscope hnot, ?_⟩
  intro hunpriced
  rw [s.board.startsWith_of_mem_unpriced hunpriced] at hscope
  cases hscope

/-- A bound row of the scope that is not listed leaves. -/
theorem not_spares_of_inside (s : State) (now : Instant) {scope : String} {bindings : List Binding}
    (hscope : Text.startsWith scope id = true) (hid : id ∉ bindings.map Binding.id)
    (hbound : (s.board.row? id).isSome = true) :
    ¬ Spares s now (.replaceRows scope bindings) id := by
  intro hspares
  have hgone : s.board.row? id = none :=
    hspares.row.symm.trans (s.board.row?_replaceScope_of_inside s.cache hscope hid)
  rw [hgone] at hbound
  cases hbound

/-- A table that comes to have no rows takes away those of a user whose name goes on with it. The
row that is made from a record without any field is enough to see this. -/
theorem not_leavesAlone_of_continues (h : Continues other user table) (otherTable : Table) :
    ¬ LeavesAlone user table other otherTable := by
  intro halone
  let payload : Value := .array [.object []]
  have hid : tableScope other otherTable ++ "#" ++ Nat.repr 0 ∈
      (bindingsIn other otherTable payload).map Binding.id := List.mem_singleton_self _
  have hunder : Text.startsWith (tableScope user table)
      (tableScope other otherTable ++ "#" ++ Nat.repr 0) = true :=
    Text.startsWith_iff.mpr ((scope_le_of_continues h otherTable).trans
      (Text.startsWith_iff.mp (startsWith_of_mem_bindingsIn hid)))
  obtain ⟨x, hx⟩ := Option.isSome_iff_exists.mp (lastBinding?_isSome_iff.mpr hid)
  have hbound := Option.isSome_of_eq_some
    (row?_of_replaceRows 0 0 [] 0 (tableScope other otherTable) hx)
  obtain ⟨hfree, hspares, -⟩ := halone .null payload 0 0 0 _ _ hid hbound
  exact not_spares_of_inside _ 0 hunder hfree hbound hspares

/-- **When tables are isolated.** Two tables leave each other alone, whatever the backend sends as
their rows and whatever the engine has handled, exactly if neither user's name goes on with the
other user's table. -/
theorem apart_iff (hdistinct : (user, table) ≠ (other, otherTable)) :
    Apart user table other otherTable ↔
      ¬ Continues other user table ∧ ¬ Continues user other otherTable := by
  constructor
  · rintro ⟨huser, hother⟩
    exact ⟨fun h => not_leavesAlone_of_continues h otherTable huser,
      fun h => not_leavesAlone_of_continues h table hother⟩
  · rintro ⟨hother, huser⟩
    exact ⟨leavesAlone_of_apart hdistinct hother huser,
      leavesAlone_of_apart hdistinct.symm huser hother⟩

end Apart

/-- Tables of two users with plain names are apart, and so are the two tables of a user; tables of
a user whose name goes on with a table of another are not apart from it. -/
theorem apart_iff_named :
    Apart "a" .requests "b" .requests ∧ Apart "a" .requests "a" .executed ∧
      ¬ Apart "a" .requests "a/requests" .executed := by
  refine ⟨(apart_iff (by decide)).mpr (by decide), (apart_iff (by decide)).mpr (by decide), ?_⟩
  intro hapart
  exact ((apart_iff (by decide)).mp hapart).1 (by decide)

/-- Settings that watch a user and one whose name goes on with a table of the first. -/
def nestedUsers : Settings where
  service := { name := "quotes" }
  backend := { baseUrl := "http://localhost" }
  dashboard := { userIds := ["a", "a/requests"] }

/-- Valid settings may name users whose tables are not apart. -/
theorem not_forall_apart :
    ¬ ∀ settings : Settings, settings.validate = .ok settings →
      ∀ user ∈ settings.dashboard.userIds, ∀ other ∈ settings.dashboard.userIds,
        ∀ table otherTable : Table, (user, table) ≠ (other, otherTable) →
          Apart user table other otherTable := by
  intro h
  have hapart := h nestedUsers rfl "a" (by decide) "a/requests" (by decide) .requests .requests
    (by decide)
  exact not_leavesAlone_of_continues (by decide) .requests hapart.1

end QuoteBoard.Dashboard
