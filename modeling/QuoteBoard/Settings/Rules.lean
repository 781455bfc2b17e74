/-
# Rules for settings

What a settings file may not say although it is well written. The rules are tried in
order, and the first that is broken is reported.
-/

import QuoteBoard.Settings.Basic

namespace QuoteBoard

/-- Why there are no settings. -/
inductive SettingsError where
  /-- The file cannot be read. -/
  | unreadable (path : String)
  /-- The file is not written as it should be, or lacks a setting. -/
  | malformed
  | blankBaseUrl
  | blankStreamUrl
  | noConcurrency
  | batchSizeOutOfRange (size : Nat)
  | noPollInterval
  | blankUser (place : Nat)
  deriving DecidableEq, Repr

namespace SettingsError

/-- How an error is worded. -/
def message : SettingsError → String
  | unreadable path => "Failed to read config file: " ++ path
  | malformed => "Failed to parse config.toml"
  | blankBaseUrl => "Backend base_url must not be empty"
  | blankStreamUrl => "Backend ws_url must not be empty when set"
  | noConcurrency => "max_concurrent must be positive"
  | batchSizeOutOfRange size =>
    "ltp.batch_size must be in [1, " ++ Nat.repr Fallback.maxBatchSize ++ "], got " ++ Nat.repr size
  | noPollInterval => "ltp.poll_interval_secs must be positive"
  | blankUser place => "dashboard.user_ids[" ++ Nat.repr place ++ "] is empty"

end SettingsError

namespace Settings

/-- A text is empty or made of blanks. -/
def isBlankText (s : String) : Bool := (Text.nonBlank s).isNone

/-- The rules, each with the error that reports it, where it is broken. -/
def broken (s : Settings) : List (Option SettingsError) :=
  [ if isBlankText s.backend.baseUrl then some .blankBaseUrl else none,
    if s.backend.streamUrl.any isBlankText then some .blankStreamUrl else none,
    if s.backend.maxConcurrent = 0 then some .noConcurrency else none,
    if 1 ≤ s.prices.batchSize ∧ s.prices.batchSize ≤ Fallback.maxBatchSize then none
      else some (.batchSizeOutOfRange s.prices.batchSize),
    if s.prices.pollIntervalSecs = 0 then some .noPollInterval else none,
    (s.dashboard.userIds.findIdx? isBlankText).map .blankUser ]

/-- Settings that break no rule, or the first rule that they break. -/
def validate (s : Settings) : Except SettingsError Settings :=
  match s.broken.findSome? id with
  | some e => .error e
  | none => .ok s

end Settings

end QuoteBoard
