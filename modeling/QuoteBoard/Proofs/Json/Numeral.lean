/-
# Written numerals read back

A numeral is written part by part: a sign, whole digits, a fraction and an exponent. The reader
of numerals takes it apart into the same parts, so what is written is read as it was meant.
-/

import Mathlib.Data.List.Basic
import QuoteBoard.Json.Reader

namespace QuoteBoard.Json

open QuoteBoard.Binary64 (splitDigits splitSign natOfDigits)

/-- The parts of a numeral. -/
structure Parts where
  negative : Bool
  whole : List Char
  fraction : List Char
  exponent : Option Int

namespace Parts

/-- A point in front of a fraction, if there is one. -/
def point : List Char → List Char
  | [] => []
  | c :: cs => '.' :: c :: cs

/-- An exponent with its letter and its sign. -/
def power : Option Int → List Char
  | none => []
  | some e => 'e' :: (if e < 0 then '-' else '+') :: Nat.toDigits 10 e.natAbs

/-- The characters of a numeral. -/
def chars (p : Parts) : List Char :=
  (if p.negative then ['-'] else []) ++ (p.whole ++ (point p.fraction ++ power p.exponent))

/-- The numeral that is meant. -/
def numeral (p : Parts) : Numeral where
  negative := p.negative
  digits := natOfDigits (p.whole ++ p.fraction)
  scale := p.exponent.getD 0 - p.fraction.length
  plain := p.fraction.isEmpty && p.exponent.isNone

/-- There are digits where digits must be, and no superfluous zero in front. -/
structure WellFormed (p : Parts) : Prop where
  whole_ne : p.whole ≠ []
  whole_digits : ∀ c ∈ p.whole, c.isDigit
  no_zero : p.whole.head? = some '0' → p.whole.length = 1
  fraction_digits : ∀ c ∈ p.fraction, c.isDigit

end Parts

theorem natOfDigits_eq (cs : List Char) : natOfDigits cs = Nat.ofDigitChars 10 cs 0 :=
  Nat.ofDigitChars_eq_foldl.symm

theorem natOfDigits_toDigits (n : Nat) : natOfDigits (Nat.toDigits 10 n) = n := by
  rw [natOfDigits_eq, Nat.ofDigitChars_ten_toDigits]

theorem isDigit_of_mem_toDigits {n : Nat} {c : Char} (h : c ∈ Nat.toDigits 10 n) : c.isDigit :=
  Nat.isDigit_of_mem_toDigits (by decide) (Nat.le_refl 10) h

/-- Digits in front of something else are split off. -/
theorem splitDigits_append {digits rest : List Char} (hdigits : ∀ c ∈ digits, c.isDigit)
    (hrest : ∀ c ∈ rest.head?, ¬ c.isDigit) : splitDigits (digits ++ rest) = (digits, rest) := by
  have hstop : rest.takeWhile Char.isDigit = [] ∧ rest.dropWhile Char.isDigit = rest := by
    cases rest with
    | nil => exact ⟨rfl, rfl⟩
    | cons c rest =>
        have hc := hrest c rfl
        exact ⟨List.takeWhile_cons_of_neg hc, List.dropWhile_cons_of_neg hc⟩
  rw [splitDigits, List.takeWhile_append_of_pos hdigits, List.dropWhile_append_of_pos hdigits,
    hstop.1, hstop.2, List.append_nil]

theorem splitDigits_digits {digits : List Char} (hdigits : ∀ c ∈ digits, c.isDigit) :
    splitDigits digits = (digits, []) := by
  have h : splitDigits (digits ++ []) = (digits, []) :=
    splitDigits_append hdigits fun c hc => absurd hc (by simp)
  rwa [List.append_nil] at h

theorem eq_of_mem_head?_power {e : Option Int} {c : Char} (h : c ∈ (Parts.power e).head?) :
    c = 'e' := by
  cases e with
  | none => cases h
  | some e => exact (Option.some.inj h).symm

/-- An exponent reads back. -/
theorem exponent?_power (e : Option Int) :
    exponent? (Parts.power e) = some (e.isSome, e.getD 0, []) := by
  cases e with
  | none => rfl
  | some e =>
      have hdigits := splitDigits_digits fun c (h : c ∈ Nat.toDigits 10 e.natAbs) =>
        isDigit_of_mem_toDigits h
      have hsign : splitSign ((if e < 0 then '-' else '+') :: Nat.toDigits 10 e.natAbs) =
          (decide (e < 0), Nat.toDigits 10 e.natAbs) := by
        by_cases hneg : e < 0 <;> simp [hneg, splitSign]
      have hvalue : (if e < 0 then -(e.natAbs : Int) else e.natAbs) = e := by
        split <;> omega
      rw [Parts.power, exponent?, if_pos (Or.inl rfl), hsign]
      simp only [hdigits, if_neg Nat.toDigits_ne_nil, natOfDigits_toDigits, decide_eq_true_eq,
        hvalue, Option.isSome_some, Option.getD_some]

/-- A fraction reads back. -/
theorem fraction?_point {fraction rest : List Char} (hdigits : ∀ c ∈ fraction, c.isDigit)
    (hrest : ∀ c ∈ rest.head?, c = 'e') :
    fraction? (Parts.point fraction ++ rest) = some (fraction, rest) := by
  cases fraction with
  | nil =>
      cases rest with
      | nil => rfl
      | cons c rest =>
          obtain rfl := hrest c rfl
          rfl
  | cons c fraction =>
      have hsplit : splitDigits (c :: fraction ++ rest) = (c :: fraction, rest) :=
        splitDigits_append hdigits fun d hd => by
          rw [hrest d hd]
          decide
      rw [Parts.point, List.cons_append, List.cons_append, fraction?, ← List.cons_append, hsplit]
      rfl

/-- A minus sign in front makes the numeral negative. -/
theorem numeral?_minus {cs : List Char} (h : ∀ rest, cs = '-' :: rest → False) :
    numeral? ('-' :: cs) = (numeral? cs).map fun r => ({ r.1 with negative := true }, r.2) := by
  rw [numeral?, numeral?]
  · generalize splitDigits cs = parts
    obtain ⟨whole, rest⟩ := parts
    dsimp only
    split
    · rfl
    · rfl
    · cases fraction? rest with
      | none => rfl
      | some found =>
          obtain ⟨fraction, rest⟩ := found
          simp only [Option.bind_eq_bind, Option.bind_some]
          cases exponent? rest <;> rfl
  · exact h

/-- **What is written part by part reads back.** -/
theorem numeral?_chars {p : Parts} (h : p.WellFormed) :
    numeral? p.chars = some (p.numeral, []) := by
  obtain ⟨negative, whole, fraction, exponent⟩ := p
  obtain ⟨hne, hwhole, hzero, hdigits⟩ := h
  dsimp only at hne hwhole hzero hdigits
  have htail : ∀ c ∈ (Parts.point fraction ++ Parts.power exponent).head?, ¬ c.isDigit := by
    intro c hc
    cases fraction with
    | nil =>
        rw [eq_of_mem_head?_power hc]
        decide
    | cons d ds =>
        rw [← Option.some.inj hc]
        decide
  have hsign : ∀ rest, whole ++ (Parts.point fraction ++ Parts.power exponent) = '-' :: rest →
      False := by
    intro rest heq
    cases whole with
    | nil => exact hne rfl
    | cons c cs =>
        have hc := hwhole c List.mem_cons_self
        rw [(List.cons.inj heq).1] at hc
        exact absurd hc (by decide)
  have hread : numeral? (whole ++ (Parts.point fraction ++ Parts.power exponent)) =
      some (Parts.numeral ⟨false, whole, fraction, exponent⟩, []) := by
    rw [numeral?]
    · simp only [splitDigits_append hwhole htail]
      split
      · exact absurd rfl hne
      · exact absurd (hzero rfl) (by simp)
      · simp only [fraction?_point hdigits fun c hc => eq_of_mem_head?_power hc, exponent?_power,
          Option.bind_eq_bind, Option.bind_some, Option.pure_def]
        cases exponent <;> rfl
    · exact hsign
  cases negative with
  | false => exact hread
  | true =>
      change numeral? ('-' :: (whole ++ _)) = _
      rw [numeral?_minus hsign, hread]
      rfl

end QuoteBoard.Json
