/-
# Look-up after a batch

The cache is described by its look-ups: after a batch the price of a key is the
last one that the batch holds for it, and a key that the batch does not name keeps
the price it had. A batch therefore never takes a price away, and the keys that it
reports are exactly those that it names.
-/

import QuoteBoard.Price.Cache
import QuoteBoard.Text.Map.Lookup
import Mathlib.Data.List.Induction

namespace QuoteBoard

namespace TextMap

universe u

variable {α : Type u}

/-- Of several values for a key the last one stays, and without any the old one. -/
theorem get?_insertAll (m : TextMap α) (pairs : List (String × α)) (k : String) :
    (m.insertAll pairs).get? k = (pairs.reverse.lookup k).or (m.get? k) := by
  induction pairs using List.reverseRecOn with
  | nil => rfl
  | append_singleton pairs p ih =>
      obtain ⟨key, value⟩ := p
      have hlast : m.insertAll (pairs ++ [(key, value)]) =
          (m.insertAll pairs).insert key value := by
        simp only [insertAll, List.foldl_append, List.foldl_cons, List.foldl_nil]
      rw [hlast, get?_insert, List.reverse_append, List.reverse_singleton, List.singleton_append,
        lookup_cons_ite]
      by_cases hk : k = key
      · simp only [if_pos hk, Option.some_or]
      · simp only [if_neg hk, ih]

/-- Look-up in a list of pairs fails exactly for the keys that no pair has. -/
theorem lookup_eq_none_iff_not_mem {pairs : List (String × α)} {k : String} :
    pairs.lookup k = none ↔ k ∉ pairs.map Prod.fst := by
  induction pairs with
  | nil => simp
  | cons p rest ih =>
      obtain ⟨key, value⟩ := p
      rw [lookup_cons_ite]
      by_cases hk : k = key
      · simp [hk]
      · simp [hk, ih]

/-- Look-up in pairs that all agree with a function. -/
theorem lookup_of_agree {f : String → Option α} {pairs : List (String × α)}
    (hagree : ∀ p ∈ pairs, f p.1 = some p.2) (k : String) :
    pairs.lookup k = if k ∈ pairs.map Prod.fst then f k else none := by
  induction pairs with
  | nil => simp
  | cons p rest ih =>
      obtain ⟨key, value⟩ := p
      have hhead := hagree (key, value) List.mem_cons_self
      have hrest := ih fun q hq => hagree q (List.mem_cons_of_mem _ hq)
      rw [lookup_cons_ite, hrest]
      by_cases hk : k = key
      · subst hk
        simp [hhead]
      · simp only [hk, if_false, List.map_cons, List.mem_cons, false_or]

/-- A table taken into another one overrides it. -/
theorem get?_insertAll_entries (m n : TextMap α) (k : String) :
    (m.insertAll n.entries).get? k = (n.get? k).or (m.get? k) := by
  have hagree : ∀ p ∈ n.entries.reverse, n.get? p.1 = some p.2 := fun p hp =>
    get?_eq_some_iff_mem.mpr (List.mem_reverse.mp hp)
  rw [get?_insertAll, lookup_of_agree hagree]
  split
  · rfl
  · next hk =>
      have hnone : n.get? k = none := lookup_eq_none_iff_not_mem.mpr (by simpa using hk)
      rw [hnone]

/-- The table that a list of pairs describes has the keys of the pairs and no others. -/
theorem mem_keys_ofList {pairs : List (String × α)} {k : String} :
    k ∈ (ofList pairs).keys ↔ k ∈ pairs.map Prod.fst := by
  rw [mem_keys_iff]
  have hlookup : (ofList pairs).get? k = pairs.reverse.lookup k := by
    rw [ofList, get?_insertAll, get?_empty, Option.or_none]
  have hmem : k ∈ pairs.map Prod.fst ↔ k ∈ pairs.reverse.map Prod.fst := by simp
  rw [hlookup, hmem]
  constructor
  · rintro ⟨v, hv⟩
    by_contra hnot
    rw [lookup_eq_none_iff_not_mem.mpr hnot] at hv
    cases hv
  · intro hk
    cases hl : pairs.reverse.lookup k with
    | none => exact absurd hk (lookup_eq_none_iff_not_mem.mp hl)
    | some v => exact ⟨v, rfl⟩

end TextMap

namespace Cache

variable (c : Cache) (batch : List (Key × Binary64))

theorem get?_merge (k : Key) :
    (c.merge batch).1.get? k = (batch.reverse.lookup k).or (c.get? k) :=
  c.prices.get?_insertAll batch k

/-- What one answer has brought stands in the cache once the answer is merged. -/
theorem get?_merge_entries (found : PriceMap) (k : Key) :
    (c.merge found.entries).1.get? k = (found.get? k).or (c.get? k) :=
  c.prices.get?_insertAll_entries found k

/-- A batch reports exactly the keys that it names. -/
theorem mem_merge_keys {k : Key} : k ∈ (c.merge batch).2 ↔ k ∈ batch.map Prod.fst :=
  TextMap.mem_keys_ofList

/-- The resident prices of some keys are the cache, restricted to these keys. -/
theorem get?_resident (keys : List Key) (k : Key) :
    (c.resident keys).get? k = if k ∈ keys then c.get? k else none := by
  have hagree : ∀ p ∈ (keys.filterMap fun j => (c.get? j).map (j, ·)).reverse,
      c.get? p.1 = some p.2 := by
    intro p hp
    obtain ⟨j, -, hj⟩ := List.mem_filterMap.mp (List.mem_reverse.mp hp)
    obtain ⟨price, hprice, rfl⟩ := Option.map_eq_some_iff.mp hj
    exact hprice
  have hmem : k ∈ (keys.filterMap fun j => (c.get? j).map (j, ·)).reverse.map Prod.fst ↔
      k ∈ keys ∧ c.get? k ≠ none := by
    simp only [List.map_reverse, List.mem_reverse, List.map_filterMap, List.mem_filterMap,
      Option.map_map, Option.map_eq_some_iff]
    constructor
    · rintro ⟨j, hj, price, hprice, rfl⟩
      exact ⟨hj, by simp [hprice]⟩
    · rintro ⟨hk, hprice⟩
      obtain ⟨price, hprice⟩ := Option.ne_none_iff_exists'.mp hprice
      exact ⟨k, hk, price, hprice, rfl⟩
  rw [resident, TextMap.ofList, TextMap.get?_insertAll, TextMap.get?_empty, Option.or_none,
    TextMap.lookup_of_agree hagree]
  simp only [hmem]
  by_cases hk : k ∈ keys <;> by_cases hnone : c.get? k = none <;> simp [hk, hnone]

/-- A key that a batch does not name keeps its price. -/
theorem get?_merge_of_not_mem {k : Key} (hk : k ∉ batch.map Prod.fst) :
    (c.merge batch).1.get? k = c.get? k := by
  have hnone : batch.reverse.lookup k = none :=
    TextMap.lookup_eq_none_iff_not_mem.mpr (by simpa using hk)
  rw [get?_merge, hnone, Option.none_or]

/-- No batch takes a price away. -/
theorem get?_eq_none_of_merge {k : Key} (hk : (c.merge batch).1.get? k = none) :
    c.get? k = none := by
  rw [get?_merge, Option.or_eq_none_iff] at hk
  exact hk.2

/-- The price of a list of keys is that of its first member with a price. -/
theorem first?_eq_some_of_split {before after : List Key} {key : Key} {price : Binary64}
    (hbefore : ∀ k ∈ before, c.get? k = none) (hkey : c.get? key = some price) :
    c.first? (before ++ key :: after) = some price := by
  have hnone : before.findSome? c.get? = none := List.findSome?_eq_none_iff.mpr hbefore
  simp only [first?, List.findSome?_append, hnone, Option.none_or, List.findSome?_cons, hkey]

/-- A list of keys has no price exactly if none of its members has one. -/
theorem first?_eq_none_iff {keys : List Key} :
    c.first? keys = none ↔ ∀ k ∈ keys, c.get? k = none :=
  List.findSome?_eq_none_iff

/-- Keys that a batch does not name keep the price that they have as a list. -/
theorem first?_merge_of_disjoint {keys : List Key}
    (hkeys : ∀ k ∈ keys, k ∉ batch.map Prod.fst) :
    (c.merge batch).1.first? keys = c.first? keys := by
  unfold first?
  induction keys with
  | nil => rfl
  | cons k rest ih =>
      have hrest := ih fun j hj => hkeys j (List.mem_cons_of_mem _ hj)
      rw [List.findSome?_cons, List.findSome?_cons,
        c.get?_merge_of_not_mem batch (hkeys k List.mem_cons_self), hrest]

/-- A list of keys without a price after a batch had none before. -/
theorem first?_eq_none_of_merge {keys : List Key}
    (hkeys : (c.merge batch).1.first? keys = none) : c.first? keys = none := by
  rw [first?_eq_none_iff] at hkeys ⊢
  exact fun k hk => c.get?_eq_none_of_merge batch (hkeys k hk)

end Cache

end QuoteBoard
