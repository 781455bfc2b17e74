/-
# Command line

Reads the settings file named by the first argument, or the standard one, and tells what
the service would do by it: the address of the price stream, the addresses of the
services it asks, how prices are kept fresh without the stream, and whose dashboards
are watched.
-/

import QuoteBoard.Backend.Request
import QuoteBoard.Settings.File

namespace QuoteBoard

/-- What settings mean, line by line. -/
def Settings.outline (s : Settings) : List String :=
  let client := Backend.Client.ofSettings s.backend
  [ "service: " ++ s.service.name,
    "price stream: " ++ s.backend.priceStream ++
      (if s.prices.startStream then "" else " (not started)"),
    "prices: " ++ client.url Backend.Request.pricesPath,
    "contracts: " ++ client.url Backend.Request.contractPath,
    "keys in a request: " ++ Nat.repr (Fallback.effectiveBatchSize s.prices.batchSize),
    "seconds between sweeps: " ++ Nat.repr s.prices.pollIntervalSecs,
    "users: " ++ ", ".intercalate s.dashboard.userIds,
    "seconds between reloads: " ++ (s.dashboard.reloadSecs?.map Nat.repr).getD "none",
    "health: " ++ (if s.metrics.enabled then s.metrics.bindAddress else "not served") ]

end QuoteBoard

open QuoteBoard in
/-- Print what the settings mean, or why there are none. -/
def main (args : List String) : IO UInt32 := do
  let path := args.head?.getD Settings.defaultPath
  let text? ← try some <$> IO.FS.readFile path catch _ => pure none
  match Settings.ofFile path text? with
  | .ok s =>
    for line in s.outline do
      IO.println line
    return 0
  | .error e =>
    IO.eprintln ("Failed to load configuration: " ++ e.message)
    return 1
