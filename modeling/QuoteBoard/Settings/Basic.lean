/-
# Settings

What the service is told when it starts: its own name, where the backend is, how
prices are asked for, whose dashboards are watched and where its health is served.
Every setting but two has a default.
-/

import QuoteBoard.Text.Blank
import QuoteBoard.Fallback.Batch

namespace QuoteBoard

/-- The service itself. -/
structure ServiceSettings where
  name : String
  logLevel : String := "info"
  deriving DecidableEq

/-- The dashboard's backend. -/
structure BackendSettings where
  baseUrl : String
  /-- The address of the price stream, where it is not derived from `baseUrl`. -/
  streamUrl : Option String := none
  timeoutMs : Nat := 10000
  maxConcurrent : Nat := 4
  /-- How often a look-up of rows is sent again after a passing failure. -/
  maxRetries : Nat := 2
  retryBaseDelayMs : Nat := 200
  deriving DecidableEq

/-- How prices are asked for. -/
structure PriceSettings where
  batchSize : Nat := Fallback.maxBatchSize
  pollIntervalSecs : Nat := 5
  startStream : Bool := true
  deriving DecidableEq

/-- Whose dashboards are watched. -/
structure DashboardSettings where
  userIds : List String := []
  reloadIntervalSecs : Option Nat := none
  deriving DecidableEq

/-- Where health and metrics are served. -/
structure MetricsSettings where
  enabled : Bool := true
  bindAddress : String := "0.0.0.0:9090"
  deriving DecidableEq

/-- All settings. -/
structure Settings where
  service : ServiceSettings
  backend : BackendSettings
  prices : PriceSettings := {}
  dashboard : DashboardSettings := {}
  metrics : MetricsSettings := {}
  deriving DecidableEq

namespace Settings

/-- The settings file that is read where no other is named. -/
def defaultPath : String := "config.toml"

/-- A text without the slashes at its end. -/
def withoutEndSlashes (s : String) : String :=
  String.ofList (s.toList.reverse.dropWhile (· == '/')).reverse

/-- The rest of a text after its start. -/
def afterStart? (start s : String) : Option String :=
  if Text.startsWith start s then some (String.ofList (s.toList.drop start.length)) else none

/-- The path of the price stream below the backend's address. -/
def streamPath : String := "/ws/ltp"

end Settings

/-- The address of the price stream: the one that is set, or that of the backend with the
scheme of sockets in place of the scheme of pages. -/
def BackendSettings.priceStream (b : BackendSettings) : String :=
  match b.streamUrl.filter fun u => (Text.nonBlank u).isSome with
  | some url => url
  | none =>
    let base := Settings.withoutEndSlashes b.baseUrl
    let base := match Settings.afterStart? "https://" base, Settings.afterStart? "http://" base with
      | some rest, _ => "wss://" ++ rest
      | none, some rest => "ws://" ++ rest
      | none, none => base
    base ++ Settings.streamPath

/-- The seconds between two reloads of the dashboards, if they are reloaded at all. -/
def DashboardSettings.reloadSecs? (d : DashboardSettings) : Option Nat :=
  d.reloadIntervalSecs.filter (0 < ·)

end QuoteBoard
