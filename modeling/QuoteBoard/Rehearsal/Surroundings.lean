/-
# Surroundings of a rehearsal

In a rehearsal the services around the engine answer by arrangement: the price source
knows certain prices, fails as often as it is told to and may hold its answers back;
tables have certain rows or fail to load; instruments have certain contracts or fail to
resolve. What has not been arranged is empty.
-/

import QuoteBoard.Backend.Record
import QuoteBoard.Dashboard.Dialogue

namespace QuoteBoard.Rehearsal

open QuoteBoard.Backend (Contract)
open QuoteBoard.Dashboard (AskError Table TradeRow)

/-- The services around the engine. -/
structure Surroundings where
  /-- What the price source knows. -/
  prices : PriceMap
  /-- How many of its next requests fail. -/
  failures : Nat
  /-- Requests to the price source wait. -/
  holding : Bool
  /-- The rows of tables, those arranged last first, or the reason why they do not load. -/
  tables : List ((String × Table) × Except String (List TradeRow))
  /-- The contracts of instruments by their symbols, or the reason why they do not resolve. -/
  contracts : TextMap (Except String (Option Contract))

namespace Surroundings

/-- Nothing is arranged. -/
def bare : Surroundings := ⟨TextMap.empty, 0, false, [], TextMap.empty⟩

/-- Arrange what the price source knows, in place of all it knew or in addition to it. -/
def setPrices (s : Surroundings) (prices : List (Key × Binary64)) (keep : Bool) : Surroundings :=
  { s with prices := (if keep then s.prices else TextMap.empty).insertAll prices }

/-- The answer of the price source to a request: the prices that it knows, or a failure. -/
def answer (s : Surroundings) (keys : List Key) : Option PriceMap × Surroundings :=
  if s.failures = 0 then (some ((Cache.mk s.prices).resident keys), s)
  else (none, { s with failures := s.failures - 1 })

/-- The rows of a table. -/
def rowsOf (s : Surroundings) (user : String) (table : Table) :
    Except AskError (List TradeRow) :=
  ((s.tables.lookup (user, table)).getD (.ok [])).mapError .backend

/-- The contract of an instrument. -/
def contractOf (s : Surroundings) (identity : Identity) : Except AskError (Option Contract) :=
  ((s.contracts.get? identity.symbol).getD (.ok none)).mapError .backend

end Surroundings

end QuoteBoard.Rehearsal
