/-
# The cache as a log

Batches of prices are taken in one after the other, and a key may occur again and again, in one
batch or in several. What the cache knows in the end is read off the log of all pairs: a key has
the price of its last pair (`LastOf`), a key without a pair has none, and there are as many
entries as there are different keys. A price gives way only to a later one of the same key, so
nothing is lost on the way and the cache never shrinks.
-/

import QuoteBoard.Proofs.Price.Cache
import Mathlib.Data.List.Dedup
import Mathlib.Data.List.Perm.Subperm

namespace QuoteBoard

universe u

/-- Among some pairs the last one of a key has this value: no pair behind it names the key. -/
def LastOf {α : Type u} (pairs : List (String × α)) (k : String) (value : α) : Prop :=
  ∃ before after, pairs = before ++ (k, value) :: after ∧ k ∉ after.map Prod.fst

/-- To look a key up from the end of a list is to take the last of its pairs. -/
theorem lookup_reverse_eq_some_iff {α : Type u} {pairs : List (String × α)} {k : String}
    {value : α} : pairs.reverse.lookup k = some value ↔ LastOf pairs k value := by
  have hbehind (behind : List (String × α)) :
      (∀ p ∈ behind, (k != p.1) = true) ↔ k ∉ behind.reverse.map Prod.fst := by
    simp only [bne_iff_ne, List.map_reverse, List.mem_reverse, List.mem_map, not_exists, not_and]
    exact forall₂_congr fun p _ => ne_comm
  rw [List.lookup_eq_some_iff]
  constructor
  · rintro ⟨behind, front, hsplit, hother⟩
    refine ⟨front.reverse, behind.reverse, ?_, (hbehind behind).mp hother⟩
    rw [← List.reverse_reverse pairs, hsplit]
    simp
  · rintro ⟨before, after, rfl, hother⟩
    refine ⟨after.reverse, before.reverse, by simp, (hbehind after.reverse).mpr ?_⟩
    rwa [List.reverse_reverse]

namespace Cache

/-- The cache after batches that are taken in one after the other. -/
def takeIn (c : Cache) (batches : List (List (Key × Binary64))) : Cache :=
  batches.foldl (fun c batch => (c.merge batch).1) c

variable (c : Cache) (batches : List (List (Key × Binary64))) (batch : List (Key × Binary64))

theorem takeIn_concat : c.takeIn (batches ++ [batch]) = ((c.takeIn batches).merge batch).1 := by
  rw [takeIn, List.foldl_append, List.foldl_cons, List.foldl_nil, takeIn]

/-- After batches the price of a key is that of its last pair, and without any pair the price that
it had. -/
theorem get?_takeIn (k : Key) :
    (c.takeIn batches).get? k = (batches.flatten.reverse.lookup k).or (c.get? k) := by
  induction batches using List.reverseRecOn with
  | nil => rfl
  | append_singleton batches batch ih =>
      rw [takeIn_concat, get?_merge, ih, ← Option.or_assoc, ← List.lookup_append,
        List.flatten_append, List.flatten_singleton, List.reverse_append]

theorem mem_keys_prices_iff {k : Key} : k ∈ c.prices.keys ↔ c.get? k ≠ none := by
  rw [TextMap.mem_keys_iff, Option.ne_none_iff_exists']
  rfl

theorem size_eq_length_keys : c.size = c.prices.keys.length := (List.length_map _).symm

/-- A cache has as many entries as there are different keys, if it has a price for each of them and
for no other. -/
theorem size_eq_length_dedup {keys : List Key} (hkeys : ∀ k, c.get? k ≠ none ↔ k ∈ keys) :
    c.size = keys.dedup.length := by
  have hperm : c.prices.keys.Perm keys.dedup := by
    rw [List.perm_ext_iff_of_nodup c.prices.nodup_keys keys.nodup_dedup]
    intro k
    rw [mem_keys_prices_iff, hkeys, List.mem_dedup]
  rw [size_eq_length_keys, hperm.length_eq]

/-- A batch takes no entry away. -/
theorem size_le_size_merge : c.size ≤ (c.merge batch).1.size := by
  have hkept : c.prices.keys ⊆ (c.merge batch).1.prices.keys := by
    intro k hk
    rw [mem_keys_prices_iff] at hk ⊢
    exact mt (c.get?_eq_none_of_merge batch) hk
  rw [size_eq_length_keys, size_eq_length_keys]
  exact (List.subperm_of_subset c.prices.nodup_keys hkept).length_le

/-- After batches from the empty cache exactly the keys that they name have a price. -/
theorem get?_takeIn_empty_eq_none_iff (k : Key) :
    (empty.takeIn batches).get? k = none ↔ k ∉ batches.flatten.map Prod.fst := by
  have hempty : empty.get? k = none := TextMap.get?_empty k
  rw [get?_takeIn, hempty, Option.or_none, TextMap.lookup_eq_none_iff_not_mem, List.map_reverse,
    List.mem_reverse]

/-- **The cache keeps the last price of every key.** After any batches from the empty cache a key
has the price of its last pair in them, and a key that none of them names has none; there are as
many entries as different keys; and the resident prices of some keys are the cache, restricted to
these keys. A further batch goes on with the log: it reports the keys of its pairs, each once, and
no entry is lost. -/
theorem takeIn_keeps_last_prices (batches : List (List (Key × Binary64))) :
    let c := empty.takeIn batches
    let log := batches.flatten
    (∀ k price, c.get? k = some price ↔ LastOf log k price) ∧
      (∀ k, c.get? k = none ↔ k ∉ log.map Prod.fst) ∧
      c.size = (log.map Prod.fst).dedup.length ∧
      (∀ keys k, (c.resident keys).get? k = if k ∈ keys then c.get? k else none) ∧
      ∀ batch,
        (c.merge batch).1 = empty.takeIn (batches ++ [batch]) ∧
        (c.merge batch).2.Nodup ∧
        (∀ k, k ∈ (c.merge batch).2 ↔ k ∈ batch.map Prod.fst) ∧
        c.size ≤ (c.merge batch).1.size := by
  intro c log
  have hnone : ∀ k, c.get? k = none ↔ k ∉ log.map Prod.fst :=
    get?_takeIn_empty_eq_none_iff batches
  refine ⟨?_, hnone, ?_, c.get?_resident, ?_⟩
  · intro k price
    have hget : c.get? k = log.reverse.lookup k :=
      (get?_takeIn empty batches k).trans (Option.or_none ..)
    rw [hget, lookup_reverse_eq_some_iff]
  · exact c.size_eq_length_dedup fun k => not_iff_comm.mp (hnone k).symm
  · intro batch
    refine ⟨(takeIn_concat empty batches batch).symm, TextMap.nodup_keys _, ?_,
      c.size_le_size_merge batch⟩
    exact fun k => c.mem_merge_keys batch

end Cache

end QuoteBoard
