/-
# Batches of keys

While the stream is down, prices are asked for by request. A request names at most
ninety keys, so a list of keys is cut into batches, each key once and in the order in
which the keys first occur. All batches are full but the last.
-/

import QuoteBoard.Text.Distinct
import QuoteBoard.Instrument.Candidates

namespace QuoteBoard.Fallback

/-- The greatest number of keys in a request. -/
def maxBatchSize : Nat := 90

/-- The batch size in force where another is asked for. -/
def effectiveBatchSize (asked : Nat) : Nat := max 1 (min asked maxBatchSize)

universe u

/-- A list cut into pieces of `size` members, the last of which may be shorter. -/
def pieces {α : Type u} (size : Nat) (xs : List α) : List (List α) :=
  if size = 0 ∨ xs = [] then [] else xs.take size :: pieces size (xs.drop size)
termination_by xs.length
decreasing_by
  rename_i h
  have hsize : size ≠ 0 := fun e => h (Or.inl e)
  have hxs : xs.length ≠ 0 := fun e => h (Or.inr (List.eq_nil_of_length_eq_zero e))
  simp only [List.length_drop]
  omega

/-- The key lists of the requests for a list of keys. -/
def batches (asked : Nat) (keys : List Key) : List (List Key) :=
  pieces (effectiveBatchSize asked) (distinct keys)

end QuoteBoard.Fallback
