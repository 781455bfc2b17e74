/-
# The settings file

A section of the file is a table. It may also be written as an array of its settings
in order, cut short anywhere. Names that are not known are passed over. A setting has
one type; whole numbers must fit the width of the setting.
-/

import QuoteBoard.Settings.Rules
import QuoteBoard.Toml.Reader

namespace QuoteBoard.Settings

open QuoteBoard.Toml (Value)

/-- What a section says to each of its settings, in order. A date in place of a section says
nothing to any of them. -/
def section? (names : List String) : Value → Option (List (Option Value))
  | .table fields => some (names.map fun name => fields.lookup name)
  | .array items => some ((List.range names.length).map fun place => items[place]?)
  | .moment _ => some (names.map fun _ => none)
  | _ => none

/-- A text. -/
def text? : Value → Option String
  | .text s => some s
  | _ => none

/-- A switch. -/
def switch? : Value → Option Bool
  | .boolean b => some b
  | _ => none

/-- A whole number below a limit. -/
def number? (limit : Nat) : Value → Option Nat
  | .integer i => if 0 ≤ i ∧ i < limit then some i.toNat else none
  | _ => none

/-- A whole number of sixty-four bits. -/
def wide? : Value → Option Nat := number? UInt64.size

/-- A list of texts. -/
def texts? : Value → Option (List String)
  | .array items => items.mapM text?
  | _ => none

/-- A setting that may be left out. -/
def orElse {α : Type} (read : Value → Option α) (standard : α) : Option Value → Option α
  | none => some standard
  | some v => read v

/-- A setting without a default, which may be left out. -/
def optional {α : Type} (read : Value → Option α) : Option Value → Option (Option α)
  | none => some none
  | some v => (read v).map some

/-- The section about the service. -/
def service? (v : Value) : Option ServiceSettings := do
  match ← section? ["name", "log_level"] v with
  | [name, logLevel] =>
    return { name := ← name.bind text?, logLevel := ← orElse text? "info" logLevel }
  | _ => none

/-- The section about the backend. -/
def backend? (v : Value) : Option BackendSettings := do
  match ← section? ["base_url", "ws_url", "timeout_ms", "max_concurrent", "max_retries",
      "retry_base_delay_ms"] v with
  | [baseUrl, streamUrl, timeoutMs, maxConcurrent, maxRetries, retryBaseDelayMs] =>
    let standard : BackendSettings := { baseUrl := ← baseUrl.bind text? }
    return { standard with
      streamUrl := ← optional text? streamUrl
      timeoutMs := ← orElse wide? standard.timeoutMs timeoutMs
      maxConcurrent := ← orElse wide? standard.maxConcurrent maxConcurrent
      maxRetries := ← orElse (number? UInt32.size) standard.maxRetries maxRetries
      retryBaseDelayMs := ← orElse wide? standard.retryBaseDelayMs retryBaseDelayMs }
  | _ => none

/-- The section about prices. -/
def prices? (v : Value) : Option PriceSettings := do
  match ← section? ["batch_size", "poll_interval_secs", "start_stream"] v with
  | [batchSize, pollIntervalSecs, startStream] =>
    let standard : PriceSettings := {}
    return {
      batchSize := ← orElse wide? standard.batchSize batchSize
      pollIntervalSecs := ← orElse wide? standard.pollIntervalSecs pollIntervalSecs
      startStream := ← orElse switch? standard.startStream startStream }
  | _ => none

/-- The section about dashboards. -/
def dashboard? (v : Value) : Option DashboardSettings := do
  match ← section? ["user_ids", "reload_interval_secs"] v with
  | [userIds, reloadIntervalSecs] =>
    return {
      userIds := ← orElse texts? [] userIds
      reloadIntervalSecs := ← optional wide? reloadIntervalSecs }
  | _ => none

/-- The section about metrics. -/
def metrics? (v : Value) : Option MetricsSettings := do
  match ← section? ["enabled", "bind_address"] v with
  | [enabled, bindAddress] =>
    let standard : MetricsSettings := {}
    return {
      enabled := ← orElse switch? standard.enabled enabled
      bindAddress := ← orElse text? standard.bindAddress bindAddress }
  | _ => none

/-- The settings that the fields of a file describe. -/
def ofFields? (fields : List (String × Value)) : Option Settings := do
  return {
    service := ← (fields.lookup "service").bind service?
    backend := ← (fields.lookup "backend").bind backend?
    prices := ← orElse prices? {} (fields.lookup "ltp")
    dashboard := ← orElse dashboard? {} (fields.lookup "dashboard")
    metrics := ← orElse metrics? {} (fields.lookup "metrics") }

/-- Read and check the text of a settings file. -/
def ofText (text : String) : Except SettingsError Settings :=
  match (Toml.ofText? text).bind ofFields? with
  | none => .error .malformed
  | some s => s.validate

/-- Read and check the settings file of a path, given its text if it has one. -/
def ofFile (path : String) (text? : Option String) : Except SettingsError Settings :=
  match text? with
  | none => .error (.unreadable path)
  | some text => ofText text

end QuoteBoard.Settings
