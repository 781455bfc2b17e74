/-
# A fetch

A fetch asks for its batches one after the other. A request that fails is passed over:
its keys stay without a price and the others are not touched. The outcome is the union
of the answers, in which a later answer overrides an earlier one.
-/

import QuoteBoard.Fallback.Batch
import QuoteBoard.Price.Cache

namespace QuoteBoard.Fallback

/-- A fetch under way: the batches not yet asked for, and the prices found so far. -/
structure Fetch where
  remaining : List (List Key)
  found : PriceMap

namespace Fetch

/-- The fetch of a list of keys, before its first request. -/
def start (asked : Nat) (keys : List Key) : Fetch := ⟨batches asked keys, TextMap.empty⟩

/-- The keys to ask for next; there are none when the fetch is complete. -/
def nextBatch? (f : Fetch) : Option (List Key) := f.remaining.head?

/-- Go on with the answer to the first remaining batch, or with its failure. -/
def answered (f : Fetch) (answer : Option PriceMap) : Fetch :=
  { remaining := f.remaining.tail
    found := match answer with
      | some prices => f.found.insertAll prices.entries
      | none => f.found }

end Fetch

/-- What a complete fetch leaves: its requests, whether each succeeded, and the prices. -/
structure Report where
  requests : List (List Key)
  outcomes : List Bool
  prices : PriceMap

/-- Ask a source for batches in order. The source sees the number of the request and its keys,
and answers with prices or fails. -/
def fetchFrom (source : Nat → List Key → Option PriceMap) (number : Nat) (found : PriceMap) :
    List (List Key) → Report
  | [] => ⟨[], [], found⟩
  | batch :: rest =>
    let answer := source number batch
    let f := (Fetch.mk (batch :: rest) found).answered answer
    let report := fetchFrom source (number + 1) f.found rest
    ⟨batch :: report.requests, answer.isSome :: report.outcomes, report.prices⟩

/-- A fetch from a source, from its first request to its last. -/
def fetch (asked : Nat) (source : Nat → List Key → Option PriceMap) (keys : List Key) : Report :=
  fetchFrom source 0 TextMap.empty (batches asked keys)

end QuoteBoard.Fallback
