/-
# The panel

All that the outside can read of a service at work: the cells and the metrics. Both follow
what the engine does, and the metrics count the requests to the price service besides,
which come to an end without the engine.
-/

import QuoteBoard.Health.Display
import QuoteBoard.Health.Metrics

namespace QuoteBoard.Health

open QuoteBoard.Engine (Effect Measure)

/-- The cells and the metrics. -/
structure Panel where
  display : Display
  metrics : Metrics
  deriving DecidableEq

namespace Panel

/-- The panel before anything has happened. -/
def blank : Panel := ⟨.blank, .initial⟩

/-- Take in a measure. -/
def record (p : Panel) (m : Measure) : Panel := { p with metrics := p.metrics.record m }

/-- Follow an effect of the engine. -/
def follow (p : Panel) (e : Effect) : Panel :=
  let p := { p with display := p.display.follow e }
  match e with
  | .measure m => p.record m
  | _ => p

/-- A request to the price service is finished: it was answered, or it has failed. -/
def finishRequest (p : Panel) (answer : Option PriceMap) : Panel :=
  p.record (.priceRequest answer.isSome)

end Panel

end QuoteBoard.Health
