/-
# Metrics

Counters and gauges of the service, and their text exposition: families in the order
of their names, each with a line of help and a line of type, and within a family one
line for each value of its label, in the order of these values. A family with a label
is left out until something has been counted.
-/

import QuoteBoard.Engine.State

namespace QuoteBoard.Health

open QuoteBoard.Engine (Measure)

/-- What has been counted, and the gauges. -/
structure Metrics where
  /-- Messages of the feed by shape. -/
  feedMessages : TextMap Nat
  /-- Finished requests to the price service by outcome. -/
  priceRequests : TextMap Nat
  cellWrites : Nat
  cacheEntries : Nat
  streamOpen : Bool
  deriving DecidableEq

namespace Metrics

/-- Nothing counted yet. -/
def initial : Metrics := ⟨TextMap.empty, TextMap.empty, 0, 0, false⟩

/-- Count one under a label. -/
def countOne (counts : TextMap Nat) (label : String) : TextMap Nat :=
  counts.insert label ((counts.get? label).getD 0 + 1)

/-- The label of a message of the feed. -/
def feedLabel (shape : Option Feed.Shape) : String := (shape.map Feed.Shape.label).getD "dropped"

/-- The label of a finished request. -/
def outcomeLabel (ok : Bool) : String := if ok then "ok" else "error"

/-- Take in a measure. -/
def record (m : Metrics) : Measure → Metrics
  | .feedMessage shape => { m with feedMessages := countOne m.feedMessages (feedLabel shape) }
  | .priceRequest ok => { m with priceRequests := countOne m.priceRequests (outcomeLabel ok) }
  | .cellWrites count => { m with cellWrites := m.cellWrites + count }
  | .cacheEntries count => { m with cacheEntries := count }
  | .streamOpen isOpen => { m with streamOpen := isOpen }

/-- The lines of a family: help, type, and one line for each sample. -/
def familyLines (name help kind : String) (samples : List (String × Nat)) : String :=
  "# HELP " ++ name ++ " " ++ help ++ "\n# TYPE " ++ name ++ " " ++ kind ++ "\n" ++
    String.join (samples.map fun (label, value) => name ++ label ++ " " ++ Nat.repr value ++ "\n")

/-- A family with a label, left out while it is empty. -/
def labelled (name help label : String) (counts : TextMap Nat) : String :=
  if counts.isEmpty then ""
  else familyLines name help "counter"
    (counts.entries.map fun (value, count) =>
      ("\x7b" ++ label ++ "=\"" ++ value ++ "\"\x7d", count))

/-- The text exposition. -/
def exposition (m : Metrics) : String :=
  familyLines "ltp_cache_entries" "Entries in the price cache" "gauge" [("", m.cacheEntries)] ++
  familyLines "ltp_cell_writes_total" "Price cell writes applied" "counter" [("", m.cellWrites)] ++
  familyLines "ltp_channel_open" "Streaming channel status (1=open, 0=not open)" "gauge"
    [("", if m.streamOpen then 1 else 0)] ++
  labelled "ltp_fallback_requests_total" "REST LTP requests by outcome" "outcome"
    m.priceRequests ++
  labelled "ltp_feed_messages_total" "Streaming feed frames by shape" "shape" m.feedMessages

end Metrics

end QuoteBoard.Health
