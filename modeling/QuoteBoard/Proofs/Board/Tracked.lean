/-
# The keys that rows look up

Which keys a row looks up is read off a log: they are those of its last binding, and then
the keys of the contracts that have been attached to it since. Prices and ticks have no
part in it. The tracked keys of a board are those of all its rows in ascending order, each
once. So a key that no row looks up any more stays untracked until an operation brings it in
again.
-/

import QuoteBoard.Proofs.Board.Desk

namespace QuoteBoard

/-! ## In ascending order -/

theorem mem_ascending_iff {texts : List String} {t : String} : t ∈ ascending texts ↔ t ∈ texts := by
  rw [ascending, TextMap.mem_keys_ofList, List.map_map]
  simp

theorem pairwise_ascending (texts : List String) : (ascending texts).Pairwise (· < ·) :=
  TextMap.pairwise_keys _

theorem nodup_ascending (texts : List String) : (ascending texts).Nodup := TextMap.nodup_keys _

/-- The tracked keys are the candidates of the rows. -/
theorem Board.mem_trackedKeys_iff {b : Board} {k : Key} :
    k ∈ b.trackedKeys ↔ ∃ id r, b.row? id = some r ∧ k ∈ r.candidates := by
  have hrow : ∀ r, r ∈ b.rows.values ↔ ∃ id, b.row? id = some r := by
    intro r
    simp only [TextMap.values, List.mem_map, Prod.exists, exists_eq_right]
    exact exists_congr fun id => TextMap.get?_eq_some_iff_mem.symm
  simp only [trackedKeys, mem_ascending_iff, List.mem_flatMap, hrow, ← exists_and_right]
  exact exists_comm

/-! ## The keys of a row -/

namespace Desk

/-- The keys that the row of a name looks up after a log, the latest operation first. -/
def lookedUp (id : RowId) : List Operation → Option (List Key)
  | [] => none
  | .bind x :: earlier => if x.id = id then some x.candidates else lookedUp id earlier
  | .replaceScope scope bindings :: earlier =>
    match lastBinding? bindings id with
    | some x => some x.candidates
    | none => if Text.startsWith scope id then none else lookedUp id earlier
  | .attach row _ key :: earlier =>
    if row = id then
      (lookedUp id earlier).map fun keys => if key ∈ keys then keys else keys ++ [key]
    else lookedUp id earlier
  | .merge _ :: earlier | .tick .. :: earlier => lookedUp id earlier

/-- **The candidates of a row** are those that its log gives it. -/
theorem candidates_after (id : RowId) (log : List Operation) :
    ((after log).board.row? id).map (·.candidates) = lookedUp id log := by
  induction log with
  | nil => rfl
  | cons op earlier ih =>
      rw [after_cons]
      cases op with
      | bind x =>
          have hrow := Board.row?_bind (after earlier).board (after earlier).cache x id
          rw [lookedUp, ← ih]
          refine (congrArg (Option.map (·.candidates)) hrow).trans ?_
          by_cases hid : x.id = id
          · rw [if_pos hid, if_pos hid.symm, Option.map_some, Row.bound_toBinding]
          · rw [if_neg hid, if_neg (Ne.symm hid)]
      | replaceScope scope bindings =>
          have hrow := Board.row?_replaceScope (after earlier).board (after earlier).cache scope
            bindings id
          rw [lookedUp, ← ih]
          refine (congrArg (Option.map (·.candidates)) hrow).trans ?_
          cases lastBinding? bindings id with
          | some x => exact congrArg some (congrArg Binding.candidates (Row.bound_toBinding ..))
          | none => cases Text.startsWith scope id <;> rfl
      | merge batch =>
          rw [lookedUp, ← ih, row?_perform_merge, Option.map_map]
          congr 1
          funext r
          rw [Function.comp_apply]
          split <;> rfl
      | attach row scrip key =>
          have hrow := Board.row?_attach (after earlier).board (after earlier).cache row scrip key
            id
          rw [lookedUp, ← ih]
          refine (congrArg (Option.map (·.candidates)) hrow).trans ?_
          by_cases hid : row = id
          · subst hid
            rw [if_pos rfl, if_pos rfl, Option.map_map, Option.map_map]
            congr 1
            funext r
            simp [Board.resolved]
          · rw [if_neg hid, if_neg (Ne.symm hid)]
      | tick code price =>
          have hrow := Board.row?_tick (after earlier).board code price id
          rw [lookedUp, ← ih]
          refine (congrArg (Option.map (·.candidates)) hrow).trans ?_
          rw [Option.map_map]
          congr 1
          funext r
          rw [Function.comp_apply]
          split <;> rfl

/-- An operation binds a row to a key, or attaches the key to one. -/
def Brings (k : Key) : Operation → Prop
  | .bind x => k ∈ x.candidates
  | .replaceScope _ bindings => ∃ x ∈ bindings, k ∈ x.candidates
  | .attach _ _ key => key = k
  | .merge _ | .tick .. => False

instance Brings.decidable (k : Key) : (op : Operation) → Decidable (Brings k op)
  | .bind x => inferInstanceAs (Decidable (k ∈ x.candidates))
  | .replaceScope _ bindings => inferInstanceAs (Decidable (∃ x ∈ bindings, k ∈ x.candidates))
  | .attach _ _ key => inferInstanceAs (Decidable (key = k))
  | .merge _ | .tick .. => .isFalse id

/-- Some row looks a key up after a log. -/
def Tracks (k : Key) (log : List Operation) : Prop :=
  ∃ id keys, lookedUp id log = some keys ∧ k ∈ keys

theorem tracks_iff {k : Key} {log : List Operation} :
    Tracks k log ↔ ∃ id r, (after log).board.row? id = some r ∧ k ∈ r.candidates := by
  simp only [Tracks, ← candidates_after, Option.map_eq_some_iff]
  constructor
  · rintro ⟨id, _, ⟨r, hrow, rfl⟩, hk⟩
    exact ⟨id, r, hrow, hk⟩
  · rintro ⟨id, r, hrow, hk⟩
    exact ⟨id, _, ⟨r, hrow, rfl⟩, hk⟩

/-- A key that is tracked was tracked before, or the operation has brought it in. -/
theorem tracks_cons {k : Key} {op : Operation} {earlier : List Operation}
    (h : Tracks k (op :: earlier)) : Tracks k earlier ∨ Brings k op := by
  obtain ⟨id, keys, hkeys, hk⟩ := h
  cases op with
  | bind x =>
      rw [lookedUp] at hkeys
      split at hkeys
      · cases hkeys
        exact Or.inr hk
      · exact Or.inl ⟨id, keys, hkeys, hk⟩
  | replaceScope scope bindings =>
      rw [lookedUp] at hkeys
      cases hlast : lastBinding? bindings id with
      | some x =>
          rw [hlast] at hkeys
          cases hkeys
          have hx : x ∈ bindings := List.mem_reverse.mp (List.mem_of_find?_eq_some hlast)
          exact Or.inr ⟨x, hx, hk⟩
      | none =>
          simp only [hlast] at hkeys
          split at hkeys
          · cases hkeys
          · exact Or.inl ⟨id, keys, hkeys, hk⟩
  | merge batch => exact Or.inl ⟨id, keys, hkeys, hk⟩
  | attach row scrip key =>
      rw [lookedUp] at hkeys
      split at hkeys
      · obtain ⟨old, hold, rfl⟩ := Option.map_eq_some_iff.mp hkeys
        by_cases hkey : k = key
        · exact Or.inr hkey.symm
        · left
          refine ⟨id, old, hold, ?_⟩
          split at hk
          · exact hk
          · simpa [hkey] using hk
      · exact Or.inl ⟨id, keys, hkeys, hk⟩
  | tick code price => exact Or.inl ⟨id, keys, hkeys, hk⟩

/-- A key that no row looks up stays untracked as long as nothing brings it in again. -/
theorem not_tracks_append {k : Key} {newer earlier : List Operation} (h : ¬ Tracks k earlier)
    (hnewer : ∀ op ∈ newer, ¬ Brings k op) : ¬ Tracks k (newer ++ earlier) := by
  induction newer with
  | nil => exact h
  | cons op newer ih =>
      intro htracks
      rcases tracks_cons htracks with hbefore | hbrings
      · exact ih (fun o ho => hnewer o (List.mem_cons_of_mem _ ho)) hbefore
      · exact hnewer op List.mem_cons_self hbrings

end Desk

end QuoteBoard
