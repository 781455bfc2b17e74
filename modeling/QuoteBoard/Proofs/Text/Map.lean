/-
# Tables made from lists

A table that a list of pairs describes is read back through its look-ups: of two values
for a key the later one counts, and where no key is repeated the order of the pairs does
not matter. A table may be made from another one by keeping for each key what a function
makes of its value, or nothing.
-/

import QuoteBoard.Proofs.Price.Cache
import Mathlib.Data.List.Nodup

namespace QuoteBoard.TextMap

universe u v

variable {α : Type u} {β : Type v}

/-- A table made from pairs has under each key the last of its values. -/
theorem get?_ofList (pairs : List (String × α)) (k : String) :
    (ofList pairs).get? k = pairs.reverse.lookup k := by
  rw [ofList, get?_insertAll, get?_empty, Option.or_none]

/-- Where no key is repeated, pairs may be looked up from either end. -/
theorem lookup_reverse_of_nodup {pairs : List (String × α)} (h : (pairs.map Prod.fst).Nodup)
    (k : String) : pairs.reverse.lookup k = pairs.lookup k := by
  induction pairs with
  | nil => rfl
  | cons p rest ih =>
      obtain ⟨key, value⟩ := p
      obtain ⟨hnew, hrest⟩ := List.nodup_cons.mp h
      rw [List.reverse_cons, List.lookup_append, ih hrest, lookup_cons_ite, lookup_cons_ite]
      by_cases hk : k = key
      · subst hk
        rw [lookup_eq_none_iff_not_mem.mpr hnew, Option.none_or, List.lookup_nil, if_pos rfl]
      · rw [if_neg hk, if_neg hk, List.lookup_nil, Option.or_none]

/-- Where no key is repeated, every pair is found under its key. -/
theorem lookup_of_mem_of_nodup {pairs : List (String × α)} (h : (pairs.map Prod.fst).Nodup)
    {p : String × α} (hp : p ∈ pairs) : pairs.lookup p.1 = some p.2 := by
  induction pairs with
  | nil => cases hp
  | cons q rest ih =>
      obtain ⟨key, value⟩ := q
      obtain ⟨hnew, hrest⟩ := List.nodup_cons.mp h
      rw [lookup_cons_ite]
      rcases List.mem_cons.mp hp with rfl | hp
      · exact if_pos rfl
      · have hne : p.1 ≠ key := fun heq => hnew (List.mem_map.mpr ⟨p, hp, heq⟩)
        rw [if_neg hne, ih hrest hp]

/-- The pairs of a table may be looked up from either end. -/
theorem lookup_reverse_entries (m : TextMap α) (k : String) :
    m.entries.reverse.lookup k = m.get? k :=
  lookup_reverse_of_nodup m.nodup_keys k

/-- Look-up among what a function makes of values, where no key is repeated. -/
theorem lookup_filterMap_of_nodup {pairs : List (String × α)} (h : (pairs.map Prod.fst).Nodup)
    (f : α → Option β) (k : String) :
    (pairs.filterMap fun p => (f p.2).map (p.1, ·)).lookup k = (pairs.lookup k).bind f := by
  induction pairs with
  | nil => rfl
  | cons p rest ih =>
      obtain ⟨key, value⟩ := p
      obtain ⟨hnew, hrest⟩ := List.nodup_cons.mp h
      rw [lookup_cons_ite]
      cases hf : f value with
      | none =>
          rw [List.filterMap_cons, hf, Option.map_none]
          rw [ih hrest]
          by_cases hk : k = key
          · subst hk
            rw [lookup_eq_none_iff_not_mem.mpr hnew, if_pos rfl, Option.bind_some, hf,
              Option.bind_none]
          · rw [if_neg hk]
      | some made =>
          rw [List.filterMap_cons, hf, Option.map_some]
          rw [lookup_cons_ite, ih hrest]
          by_cases hk : k = key
          · rw [if_pos hk, if_pos hk, Option.bind_some, hf]
          · rw [if_neg hk, if_neg hk]

/-- The table of what a function makes of the values of pairs without a repeated key. -/
theorem get?_ofList_filterMap {pairs : List (String × α)} (h : (pairs.map Prod.fst).Nodup)
    (f : α → Option β) (k : String) :
    (ofList (pairs.filterMap fun p => (f p.2).map (p.1, ·))).get? k = (pairs.lookup k).bind f := by
  have hreverse : (pairs.reverse.map Prod.fst).Nodup := by
    rw [List.map_reverse, List.nodup_reverse]
    exact h
  rw [get?_ofList, ← List.filterMap_reverse, lookup_filterMap_of_nodup hreverse,
    lookup_reverse_of_nodup h]

end QuoteBoard.TextMap
