/-
# Look-up in a table keyed by text

Each operation of `TextMap` said through look-up: what `get?` answers after an
insertion, a removal or a change of all values. A table is determined by its
look-ups (`ext_get?`), because the order of its keys leaves no choice.
-/

import QuoteBoard.Text.Map

namespace QuoteBoard.TextMap

universe u v

variable {α : Type u} {β : Type v}

/-- Look-up in a list of pairs, as a choice on the first pair. -/
theorem lookup_cons_ite (k key : String) (value : α) (rest : List (String × α)) :
    ((key, value) :: rest).lookup k = if k = key then some value else rest.lookup k := by
  by_cases h : k = key
  · subst h; simp
  · have : (k == key) = false := by simpa using h
    simp [List.lookup_cons, this, h]

theorem lookup_eq_none_of_forall_lt {key : String} {pairs : List (String × α)}
    (h : ∀ p ∈ pairs, key < p.1) : pairs.lookup key = none := by
  induction pairs with
  | nil => rfl
  | cons p rest ih =>
    obtain ⟨k, v⟩ := p
    have hne : key ≠ k := fun heq => String.lt_irrefl _ (heq ▸ h (k, v) List.mem_cons_self)
    rw [lookup_cons_ite, if_neg hne]
    exact ih fun q hq => h q (List.mem_cons_of_mem _ hq)

theorem lookup_insertEntry {key k : String} {value : α} {pairs : List (String × α)} :
    (insertEntry key value pairs).lookup k =
      if k = key then some value else pairs.lookup k := by
  induction pairs with
  | nil => rw [insertEntry, lookup_cons_ite]
  | cons head rest ih =>
    obtain ⟨k', v⟩ := head
    unfold insertEntry
    split
    next => rw [lookup_cons_ite]
    next =>
      split
      next heq => subst heq; by_cases h : k = key <;> simp [lookup_cons_ite, h]
      next hne =>
        by_cases hk : k = k'
        · subst hk
          have : k ≠ key := fun h => hne h.symm
          simp [this]
        · simp [lookup_cons_ite, hk, ih]

@[simp] theorem get?_empty (key : String) : (empty : TextMap α).get? key = none := rfl

theorem get?_insert (m : TextMap α) (key k : String) (value : α) :
    (m.insert key value).get? k = if k = key then some value else m.get? k :=
  lookup_insertEntry

@[simp] theorem get?_insert_self (m : TextMap α) (key : String) (value : α) :
    (m.insert key value).get? key = some value := by simp [get?_insert]

theorem get?_insert_of_ne {m : TextMap α} {key k : String} {value : α} (h : k ≠ key) :
    (m.insert key value).get? k = m.get? k := by simp [get?_insert, h]

theorem lookup_filter_key (keep : String → Bool) (k : String) (pairs : List (String × α)) :
    (pairs.filter (fun p => keep p.1)).lookup k = if keep k then pairs.lookup k else none := by
  induction pairs with
  | nil => simp
  | cons p rest ih =>
    obtain ⟨k', v⟩ := p
    by_cases hk : k = k'
    · subst hk
      cases hkeep : keep k <;> simp [hkeep, ih]
    · cases hkeep : keep k' <;> simp [lookup_cons_ite, hk, hkeep, ih]

theorem get?_filterKeys (m : TextMap α) (keep : String → Bool) (k : String) :
    (m.filterKeys keep).get? k = if keep k then m.get? k else none :=
  lookup_filter_key keep k m.entries

theorem get?_erase (m : TextMap α) (key k : String) :
    (m.erase key).get? k = if k = key then none else m.get? k := by
  have h := lookup_filter_key (fun j => decide (j ≠ key)) k m.entries
  unfold get? erase
  simp only [h]
  by_cases hk : k = key <;> simp [hk]

@[simp] theorem get?_map (m : TextMap α) (f : α → β) (k : String) :
    (m.map f).get? k = (m.get? k).map f := by
  unfold get? map
  simp only
  induction m.entries with
  | nil => rfl
  | cons p rest ih =>
    obtain ⟨k', v⟩ := p
    by_cases hk : k = k' <;> simp [lookup_cons_ite, hk, ih]

/-- A pair of the table is found under its key. -/
theorem get?_eq_some_iff_mem {m : TextMap α} {k : String} {value : α} :
    m.get? k = some value ↔ (k, value) ∈ m.entries := by
  unfold get?
  have hord := m.ordered
  revert hord
  induction m.entries with
  | nil => simp
  | cons p rest ih =>
    obtain ⟨k', v⟩ := p
    intro hord
    obtain ⟨hhead, hrest⟩ := List.pairwise_cons.1 hord
    by_cases hk : k = k'
    · subst hk
      have hnot : (k, value) ∉ rest := fun hmem => String.lt_irrefl k (hhead _ hmem)
      simp [hnot, eq_comm]
    · simp [lookup_cons_ite, hk, ih hrest]

/-- A key is listed exactly when look-up finds it. -/
theorem mem_keys_iff {m : TextMap α} {k : String} : k ∈ m.keys ↔ ∃ v, m.get? k = some v := by
  simp [keys, get?_eq_some_iff_mem]

/-- Keys are listed in strictly ascending order. -/
theorem pairwise_keys (m : TextMap α) : m.keys.Pairwise (· < ·) := by
  unfold keys
  rw [List.pairwise_map]
  exact m.ordered

/-- No key is listed twice. -/
theorem nodup_keys (m : TextMap α) : m.keys.Nodup := by
  apply m.pairwise_keys.imp
  rintro k _ hlt rfl
  exact String.lt_irrefl k hlt

theorem entries_eq_of_lookup_eq {ms ns : List (String × α)}
    (hms : ms.Pairwise (fun a b => a.1 < b.1)) (hns : ns.Pairwise (fun a b => a.1 < b.1))
    (h : ∀ k, ms.lookup k = ns.lookup k) : ms = ns := by
  induction ms generalizing ns with
  | nil =>
    cases ns with
    | nil => rfl
    | cons q ns =>
      obtain ⟨k, v⟩ := q
      have := h k
      rw [lookup_cons_ite, if_pos rfl] at this
      cases this
  | cons p ms ih =>
    cases ns with
    | nil =>
      obtain ⟨k, v⟩ := p
      have := h k
      rw [lookup_cons_ite, if_pos rfl] at this
      cases this
    | cons q ns =>
      obtain ⟨k, v⟩ := p
      obtain ⟨k', v'⟩ := q
      obtain ⟨hp, hms⟩ := List.pairwise_cons.1 hms
      obtain ⟨hq, hns⟩ := List.pairwise_cons.1 hns
      have hkk : k = k' := by
        refine String.le_antisymm (String.not_lt.1 fun hlt => ?_) (String.not_lt.1 fun hlt => ?_)
        · have hne : k' ≠ k := fun he => String.lt_irrefl _ (he ▸ hlt)
          have := h k'
          rw [lookup_cons_ite, lookup_cons_ite, if_neg hne, if_pos rfl,
            lookup_eq_none_of_forall_lt fun r hr => String.lt_trans hlt (hp r hr)] at this
          cases this
        · have hne : k ≠ k' := fun he => String.lt_irrefl _ (he ▸ hlt)
          have := h k
          rw [lookup_cons_ite, lookup_cons_ite, if_neg hne, if_pos rfl,
            lookup_eq_none_of_forall_lt fun r hr => String.lt_trans hlt (hq r hr)] at this
          cases this
      subst hkk
      have hv := h k
      simp only [lookup_cons_ite, if_true, Option.some.injEq] at hv
      subst hv
      have hrest : ∀ j, ms.lookup j = ns.lookup j := by
        intro j
        by_cases hj : j = k
        · subst hj
          rw [lookup_eq_none_of_forall_lt hp, lookup_eq_none_of_forall_lt hq]
        · simpa [lookup_cons_ite, hj] using h j
      rw [ih hms ‹ns.Pairwise _› hrest]

/-- **A table is determined by its look-ups.** -/
theorem ext_get? {m n : TextMap α} (h : ∀ k, m.get? k = n.get? k) : m = n := by
  obtain ⟨ms, hms⟩ := m
  obtain ⟨ns, hns⟩ := n
  have : ms = ns := entries_eq_of_lookup_eq hms hns h
  subst this
  rfl

end QuoteBoard.TextMap
