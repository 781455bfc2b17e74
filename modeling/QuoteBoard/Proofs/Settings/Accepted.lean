/-
# Settings that are accepted

What is read from a settings file and breaks no rule is accepted. A whole number is read only if it
fits the width of its setting, so accepted settings hold numbers of these widths. The rules bound
some of them further, but not how often a look-up is sent again.
-/

import QuoteBoard.Settings.File

namespace QuoteBoard

/-- The numbers of the settings for the backend fit their widths. -/
structure BackendSettings.Fits (b : BackendSettings) : Prop where
  timeoutMs : b.timeoutMs < UInt64.size
  maxConcurrent : b.maxConcurrent < UInt64.size
  maxRetries : b.maxRetries < UInt32.size
  retryBaseDelayMs : b.retryBaseDelayMs < UInt64.size

namespace Settings

open QuoteBoard.Toml (Value)

/-- Settings are accepted exactly if no rule is broken, and then as they are. -/
theorem validate_eq_ok_iff {s t : Settings} :
    s.validate = .ok t ↔ s.broken.findSome? id = none ∧ s = t := by
  rw [validate]
  cases s.broken.findSome? id with
  | none => simp
  | some e => simp

/-- What a file is accepted as has been read from its fields and breaks no rule. -/
theorem ofText_eq_ok {text : String} {s : Settings} (h : ofText text = .ok s) :
    (∃ fields, ofFields? fields = some s) ∧ s.validate = .ok s := by
  rw [ofText] at h
  split at h
  · cases h
  · next t hread =>
      obtain ⟨fields, -, hfields⟩ := Option.bind_eq_some_iff.mp hread
      obtain ⟨-, rfl⟩ := validate_eq_ok_iff.mp h
      exact ⟨⟨fields, hfields⟩, h⟩

/-- A whole number that is read is below the limit. -/
theorem number?_lt {limit n : Nat} {v : Value} (h : number? limit v = some n) : n < limit := by
  cases v with
  | integer i =>
      rw [number?] at h
      split at h
      · next hi =>
          cases h
          omega
      · cases h
  | _ => cases h

/-- A whole number is below the limit whether it is read or left out. -/
theorem orElse_number?_lt {limit standard n : Nat} {v? : Option Value}
    (hstandard : standard < limit) (h : orElse (number? limit) standard v? = some n) :
    n < limit := by
  cases v? with
  | none =>
      cases h
      exact hstandard
  | some v => exact number?_lt h

theorem backend?_fits {v : Value} {b : BackendSettings} (h : backend? v = some b) : b.Fits := by
  simp only [backend?, Option.bind_eq_bind, Option.bind_eq_some_iff] at h
  obtain ⟨said, -, h⟩ := h
  split at h
  · simp only [Option.pure_def, Option.bind_eq_some_iff, Option.some_inj] at h
    obtain ⟨base, -, url, -, timeout, htimeout, concurrent, hconcurrent, retries, hretries,
      delay, hdelay, rfl⟩ := h
    exact
      { timeoutMs := orElse_number?_lt (by decide) htimeout
        maxConcurrent := orElse_number?_lt (by decide) hconcurrent
        maxRetries := orElse_number?_lt (by decide) hretries
        retryBaseDelayMs := orElse_number?_lt (by decide) hdelay }
  · cases h

/-- The numbers of accepted settings for the backend fit their widths. -/
theorem fits_of_ofText {text : String} {s : Settings} (h : ofText text = .ok s) :
    s.backend.Fits := by
  obtain ⟨⟨fields, hfields⟩, -⟩ := ofText_eq_ok h
  simp only [ofFields?, Option.bind_eq_bind, Option.bind_eq_some_iff] at hfields
  obtain ⟨service, -, backend, ⟨v, -, hbackend⟩, hfields⟩ := hfields
  simp only [Option.pure_def, Option.some_inj] at hfields
  obtain ⟨prices, -, dashboard, -, metrics, -, rfl⟩ := hfields
  exact backend?_fits hbackend

/-- Settings in which look-ups are sent again up to `n` times. -/
def withRetries (s : Settings) (n : Nat) : Settings :=
  { s with backend := { s.backend with maxRetries := n } }

/-- No rule bounds how often a look-up is sent again. -/
theorem validate_withRetries {s : Settings} (h : s.validate = .ok s) (n : Nat) :
    (s.withRetries n).validate = .ok (s.withRetries n) := by
  have hkept : (s.withRetries n).broken = s.broken := rfl
  rw [validate_eq_ok_iff, hkept]
  exact ⟨(validate_eq_ok_iff.mp h).1, rfl⟩

end Settings

end QuoteBoard
