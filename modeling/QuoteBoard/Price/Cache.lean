/-
# The price cache

The last known price of every key. Prices arrive in batches from the feed and from
the fallback; the later of two prices for a key stays, whatever its source, and no
price is ever dropped. A batch reports which keys it wrote, so that exactly the rows
concerned are shown anew.
-/

import QuoteBoard.Text.Map
import QuoteBoard.Binary64.Basic
import QuoteBoard.Instrument.Candidates

namespace QuoteBoard

/-- Prices by key, as one message or one answer brings them. -/
abbrev PriceMap := TextMap Binary64

/-- The last known price of every key. -/
structure Cache where
  prices : PriceMap
  deriving DecidableEq

namespace Cache

/-- The cache before any price has arrived. -/
def empty : Cache := ⟨TextMap.empty⟩

/-- The last known price of a key. -/
def get? (c : Cache) (key : Key) : Option Binary64 := c.prices.get? key

/-- The number of keys with a price. -/
def size (c : Cache) : Nat := c.prices.size

/-- The prices of those keys that have one. -/
def resident (c : Cache) (keys : List Key) : PriceMap :=
  TextMap.ofList (keys.filterMap fun k => (c.get? k).map (k, ·))

/-- The price of the first key that has one. -/
def first? (c : Cache) (keys : List Key) : Option Binary64 := keys.findSome? c.get?

/-- Take in a batch of prices, in order. The second part lists the keys written, each once. -/
def merge (c : Cache) (batch : List (Key × Binary64)) : Cache × List Key :=
  (⟨c.prices.insertAll batch⟩, (TextMap.ofList batch).keys)

end Cache

end QuoteBoard
