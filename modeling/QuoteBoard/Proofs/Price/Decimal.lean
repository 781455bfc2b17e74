/-
# Libraries of decimal numbers

What is documented of a library of decimal numbers, as a predicate on libraries. It is met by
the one that keeps as many decimals as there is room for and cuts the others off.
-/

import Mathlib.Algebra.Order.Floor.Semifield
import Mathlib.Data.Nat.Cast.Field
import Mathlib.Data.Nat.Find
import Mathlib.Data.Rat.Floor
import QuoteBoard.Price.Decimal
import QuoteBoard.Proofs.Binary64.Value

namespace QuoteBoard.Price

/-- A number of hundredths as a plain numeral with two decimals. -/
def plainNumeral (cents : Nat) : String :=
  Nat.repr (cents / 100) ++ "." ++ Nat.repr (cents / 10 % 10) ++ Nat.repr (cents % 10)

theorem roundHalfUp_eq_floor {n d : Nat} (hd : 0 < d) :
    roundHalfUp n d = ⌊(n : ℚ) / d + 1 / 2⌋₊ := by
  have hne : (d : ℚ) ≠ 0 := Nat.cast_ne_zero.mpr hd.ne'
  have hsum : (n : ℚ) / d + 1 / 2 = ((2 * n + d : Nat) : ℚ) / (2 * d : Nat) := by
    push_cast
    field_simp
  rw [hsum, Nat.floor_div_eq_div, roundHalfUp]

/-- The size of a decimal number. -/
def Decimal.size (d : Decimal) : ℚ := d.coefficient / 10 ^ d.scale

/-- The size of the greatest decimal number. -/
def largest : ℚ := (coefficientCount - 1 : Nat)

/-- What is documented of a library of decimal numbers. How the last digits of a number that has
too many come out, and whether the sign of a number rounded to zero stays, is left open. -/
structure DecimalLibrary.AsDocumented (library : DecimalLibrary) : Prop where
  /-- A number has a decimal number if it is not too large. -/
  retain?_eq_none_iff : ∀ x : Binary64, x.isFinite →
    (library.retain? x = none ↔ largest < |x.toRat|)
  /-- The sign stays. -/
  negative_of_retain? : ∀ x d, library.retain? x = some d → d.negative = x.isNegative
  /-- A size that some decimal number has is kept. -/
  exact_of_retain? : ∀ x d, library.retain? x = some d →
    (∃ e : Decimal, e.size = |x.toRat|) → d.size = |x.toRat|
  /-- Of any other size twenty-two digits are kept. -/
  close_of_retain? : ∀ x d, library.retain? x = some d →
    abs (d.size - |x.toRat|) ≤ (|x.toRat| + 1) / 10 ^ 22
  /-- Rounding is exact, a half away from zero. -/
  size_round : ∀ d, (library.round d).size = ⌊100 * d.size + 1 / 2⌋₊ / 100
  /-- Two decimals are left. -/
  scale_round : ∀ d, (library.round d).scale ≤ 2
  /-- The sign stays if the number is not rounded to zero. -/
  negative_round : ∀ d, (library.round d).size ≠ 0 → (library.round d).negative = d.negative
  /-- No sign comes from rounding. -/
  nonneg_round : ∀ d, d.negative = false → (library.round d).negative = false
  /-- A decimal number without more decimals is written as it is, with its sign. -/
  write_eq : ∀ d, d.scale ≤ 2 → library.write d =
    (if d.negative then "-" else "") ++ plainNumeral (d.coefficient * 10 ^ (2 - d.scale))

theorem pow_places {scale : Nat} (h : scale ≤ 2) :
    (10 : ℚ) ^ (2 - scale) * 10 ^ scale = 100 := by
  rw [← pow_add, Nat.sub_add_cancel h]
  norm_num

/-- The hundredths of a decimal number with two decimals at most. -/
theorem Decimal.cents_eq_of_size {d : Decimal} {cents : Nat} (hscale : d.scale ≤ 2)
    (hsize : d.size = cents / 100) : d.coefficient * 10 ^ (2 - d.scale) = cents := by
  have hne : (10 : ℚ) ^ d.scale ≠ 0 := by positivity
  rw [Decimal.size, div_eq_div_iff hne (by norm_num)] at hsize
  have heq : (d.coefficient : ℚ) * 10 ^ (2 - d.scale) = cents := by
    apply mul_right_cancel₀ hne
    rw [mul_assoc, pow_places hscale, hsize]
  exact_mod_cast heq

/-! ## The library that cuts decimals off -/

theorem withPoint_eq (cents : Nat) : withPoint cents = plainNumeral cents := by
  have hdigit : ∀ n : Nat, Nat.repr (n % 10) = String.singleton (Nat.digitChar (n % 10)) :=
    fun n => Nat.repr_of_lt (Nat.mod_lt n (by decide))
  apply String.toList_injective
  rw [withPoint, plainNumeral, hdigit, hdigit]
  simp

theorem roomUpTo_eq_findGreatest (x : Binary64) (bound : Nat) :
    roomUpTo x bound = Nat.findGreatest (HasRoom x) bound := by
  induction bound with
  | zero => rfl
  | succ scale ih => rw [roomUpTo, Nat.findGreatest_succ, ih]

theorem le_keptScale {x : Binary64} {scale : Nat} (hle : scale ≤ maxScale)
    (hroom : HasRoom x scale) : scale ≤ keptScale x := by
  rw [keptScale, roomUpTo_eq_findGreatest]
  exact Nat.le_findGreatest hle hroom

theorem inRange_iff (x : Binary64) : InRange x ↔ |x.toRat| ≤ largest := by
  have hden : (0 : ℚ) < x.magnitude.2 := Nat.cast_pos.mpr x.magnitude_snd_pos
  rw [Binary64.abs_toRat, Binary64.size_eq_magnitude, div_le_iff₀ hden, largest, InRange]
  exact_mod_cast Iff.rfl

theorem isLost_iff (x : Binary64) : IsLost x ↔ x.isZero = false ∧ 9 * 10 ^ 29 * x.size < 85 := by
  have hden : (0 : ℚ) < x.magnitude.2 := Nat.cast_pos.mpr x.magnitude_snd_pos
  rw [IsLost, Binary64.size_eq_magnitude, mul_div_assoc', div_lt_iff₀ hden]
  refine and_congr_right fun _ => ?_
  rw [← Nat.cast_lt (α := ℚ)]
  push_cast [finestPerOne]
  ring_nf

theorem retain?_cuttingLibrary {x : Binary64} (hlost : ¬ IsLost x) (hrange : InRange x) :
    cuttingLibrary.retain? x = some (cut x hrange) :=
  (if_neg hlost).trans (dif_pos hrange)

/-- What a decimal number is made of: of nothing that is lost, and else of what is in range. -/
theorem cutIfInRange?_eq_some {x : Binary64} {d : Decimal} (h : cutIfInRange? x = some d) :
    IsLost x ∧ d = .zero x.isNegative ∨ ∃ hrange : InRange x, d = cut x hrange := by
  unfold cutIfInRange? at h
  split at h
  · next hlost => exact .inl ⟨hlost, (Option.some.inj h).symm⟩
  · split at h
    · next hrange => exact .inr ⟨hrange, (Option.some.inj h).symm⟩
    · cases h

/-- What is lost is smaller than the last decimal, so it is in range. -/
theorem IsLost.size_le {x : Binary64} (h : IsLost x) : x.size ≤ 1 / 10 ^ 28 := by
  have hsize := ((isLost_iff x).mp h).2
  rw [le_div_iff₀ (by norm_num)]
  linarith

theorem IsLost.inRange {x : Binary64} (h : IsLost x) : InRange x := by
  rw [inRange_iff, Binary64.abs_toRat]
  refine h.size_le.trans ?_
  norm_num [largest, coefficientCount]

theorem cutIfInRange?_eq_none_iff (x : Binary64) :
    cutIfInRange? x = none ↔ largest < |x.toRat| := by
  rw [← not_le, ← inRange_iff, cutIfInRange?]
  split
  · next hlost => simp [hlost.inRange]
  · split <;> simp [*]

/-- What is lost is no decimal number, as those come in units of the last decimal. -/
theorem IsLost.size_ne {x : Binary64} (h : IsLost x) (e : Decimal) : e.size ≠ x.size := by
  obtain ⟨hzero, hsize⟩ := (isLost_iff x).mp h
  intro he
  have hpow : (0 : ℚ) < 10 ^ e.scale := by positivity
  have hcoefficient : e.coefficient ≠ 0 := by
    intro hc
    rw [Decimal.size, hc, Nat.cast_zero, zero_div, ← Binary64.abs_toRat, eq_comm, abs_eq_zero,
      ← Binary64.isZero_iff_toRat, hzero] at he
    exact Bool.false_ne_true he
  have hunit : 1 / 10 ^ 28 ≤ e.size := by
    calc (1 : ℚ) / 10 ^ 28
        ≤ 1 / 10 ^ e.scale := by
          gcongr
          · norm_num
          · exact e.scale_le
      _ ≤ e.size := by
          rw [Decimal.size]
          gcongr
          exact_mod_cast Nat.one_le_iff_ne_zero.mpr hcoefficient
  rw [he, div_le_iff₀ (by norm_num)] at hunit
  linarith

/-- A size that a decimal number has needs no more decimals than are kept. -/
theorem size_cut_of_exact {x : Binary64} (h : InRange x) {e : Decimal} (he : e.size = x.size) :
    (cut x h).size = x.size := by
  have hden := x.magnitude_snd_pos
  have hne : (x.magnitude.2 : ℚ) ≠ 0 := Nat.cast_ne_zero.mpr hden.ne'
  have hpow : (10 : ℚ) ^ e.scale ≠ 0 := by positivity
  have heq : e.coefficient * x.magnitude.2 = x.magnitude.1 * 10 ^ e.scale := by
    rw [Binary64.size_eq_magnitude, Decimal.size, div_eq_div_iff hpow hne] at he
    exact_mod_cast he
  have hscale : e.scale ≤ keptScale x := by
    apply le_keptScale e.scale_le
    change x.magnitude.1 * 10 ^ e.scale < _
    rw [← heq]
    exact Nat.mul_lt_mul_of_pos_right e.coefficient_lt hden
  have hdvd : x.magnitude.2 ∣ x.magnitude.1 * 10 ^ keptScale x := by
    rw [← Nat.add_sub_cancel' hscale, pow_add, ← mul_assoc, ← heq]
    exact ⟨e.coefficient * 10 ^ (keptScale x - e.scale), by ring⟩
  rw [Decimal.size, Binary64.size_eq_magnitude]
  change ((x.magnitude.1 * 10 ^ keptScale x / x.magnitude.2 : Nat) : ℚ) / 10 ^ keptScale x = _
  rw [Nat.cast_div hdvd hne]
  push_cast
  field_simp

/-- The last decimal kept is fine enough for twenty-two digits. -/
theorem unit_le {x : Binary64} : 1 / (10 : ℚ) ^ keptScale x ≤ (x.size + 1) / 10 ^ 22 := by
  have hsize := x.size_nonneg
  have hbound : keptScale x ≤ maxScale := roomUpTo_le x maxScale
  rcases hbound.eq_or_lt with hall | hless
  · rw [hall, maxScale, div_le_div_iff₀ (by positivity) (by positivity)]
    linarith
  · -- one decimal more would have had no room
    have hfull : ¬ x.magnitude.1 * 10 ^ (keptScale x + 1) < coefficientCount * x.magnitude.2 :=
      fun hroom => Nat.not_succ_le_self _ (le_keptScale hless hroom)
    have hden : (0 : ℚ) < x.magnitude.2 := Nat.cast_pos.mpr x.magnitude_snd_pos
    have hpow : (0 : ℚ) < 10 ^ keptScale x := by positivity
    have hroom : (10 : ℚ) ^ 23 ≤ x.size * 10 ^ (keptScale x + 1) := by
      rw [Binary64.size_eq_magnitude, div_mul_eq_mul_div, le_div_iff₀ hden]
      have hcount : (10 : ℚ) ^ 23 ≤ coefficientCount := by norm_num [coefficientCount]
      calc (10 : ℚ) ^ 23 * x.magnitude.2
          ≤ coefficientCount * x.magnitude.2 := by gcongr
        _ ≤ x.magnitude.1 * 10 ^ (keptScale x + 1) := by exact_mod_cast not_lt.mp hfull
    rw [pow_succ (10 : ℚ) (keptScale x)] at hroom
    rw [div_le_div_iff₀ hpow (by positivity)]
    linarith

/-- What is cut off is less than one unit of the last decimal. -/
theorem size_cut_close {x : Binary64} (h : InRange x) :
    |(cut x h).size - x.size| ≤ (x.size + 1) / 10 ^ 22 := by
  refine le_trans (le_of_lt ?_) unit_le
  have hden : (0 : ℚ) < x.magnitude.2 := Nat.cast_pos.mpr x.magnitude_snd_pos
  have hpow : (0 : ℚ) < 10 ^ keptScale x := by positivity
  have hscaled : x.size * 10 ^ keptScale x =
      ((x.magnitude.1 * 10 ^ keptScale x : Nat) : ℚ) / x.magnitude.2 := by
    rw [Binary64.size_eq_magnitude, div_mul_eq_mul_div]
    push_cast
    rfl
  have hcoefficient : (cut x h).coefficient = ⌊x.size * 10 ^ keptScale x⌋₊ := by
    rw [hscaled, Nat.floor_div_eq_div]
    rfl
  have hlow := Nat.floor_le (mul_nonneg x.size_nonneg hpow.le)
  have hhigh := Nat.lt_floor_add_one (x.size * 10 ^ keptScale x)
  rw [← hcoefficient] at hlow hhigh
  rw [Decimal.size, show (cut x h).scale = keptScale x from rfl, abs_sub_lt_iff]
  constructor
  · rw [sub_lt_iff_lt_add, div_lt_iff₀ hpow, add_mul, div_mul_cancel₀ _ hpow.ne']
    linarith
  · rw [sub_lt_iff_lt_add, ← add_div, lt_div_iff₀ hpow]
    linarith

theorem IsLost.size_zero_close {x : Binary64} (h : IsLost x) (negative : Bool) :
    |(Decimal.zero negative).size - x.size| ≤ (x.size + 1) / 10 ^ 22 := by
  have hle := h.size_le
  have hnonneg := x.size_nonneg
  have hzero : (Decimal.zero negative).size = 0 := by simp [Decimal.size, Decimal.zero]
  rw [hzero, zero_sub, abs_neg, abs_of_nonneg hnonneg, le_div_iff₀ (by norm_num)]
  rw [le_div_iff₀ (by norm_num)] at hle
  linarith

theorem size_toHundredths (d : Decimal) :
    (toHundredths d).size = ⌊100 * d.size + 1 / 2⌋₊ / 100 := by
  unfold toHundredths
  split
  · have hpow : 0 < 10 ^ d.scale := Nat.pow_pos (by decide)
    rw [Decimal.size, Decimal.size]
    dsimp only
    rw [Nat.pow_eq, roundHalfUp_eq_floor hpow]
    push_cast
    rw [mul_div_assoc]
    norm_num
  · next hscale =>
      obtain ⟨cents, hcents⟩ : ∃ cents : Nat, d.size = cents / 100 := by
        refine ⟨d.coefficient * 10 ^ (2 - d.scale), ?_⟩
        rw [Decimal.size, div_eq_div_iff (by positivity) (by norm_num),
          ← pow_places (not_lt.mp hscale)]
        push_cast
        ring
      have hfloor : ⌊(cents : ℚ) + 1 / 2⌋₊ = cents := by
        rw [Nat.floor_eq_iff (by positivity)]
        exact ⟨by linarith, by linarith⟩
      rw [hcents, mul_div_cancel₀ _ (by norm_num : (100 : ℚ) ≠ 0), hfloor]

/-- **The library that cuts decimals off is as documented.** -/
theorem cuttingLibrary_asDocumented : cuttingLibrary.AsDocumented where
  retain?_eq_none_iff x _ := cutIfInRange?_eq_none_iff x
  negative_of_retain? x d h := by
    obtain ⟨-, rfl⟩ | ⟨hrange, rfl⟩ := cutIfInRange?_eq_some h <;> rfl
  exact_of_retain? x d h hexact := by
    obtain ⟨e, he⟩ := hexact
    rw [Binary64.abs_toRat] at he ⊢
    obtain ⟨hlost, -⟩ | ⟨hrange, rfl⟩ := cutIfInRange?_eq_some h
    · exact absurd he (hlost.size_ne e)
    · exact size_cut_of_exact hrange he
  close_of_retain? x d h := by
    rw [Binary64.abs_toRat]
    obtain ⟨hlost, rfl⟩ | ⟨hrange, rfl⟩ := cutIfInRange?_eq_some h
    · exact hlost.size_zero_close x.isNegative
    · exact size_cut_close hrange
  size_round := size_toHundredths
  scale_round d := by
    change (toHundredths d).scale ≤ 2
    unfold toHundredths
    split
    · exact le_rfl
    · next h => exact not_lt.mp h
  negative_round d := by
    change (toHundredths d).size ≠ 0 → (toHundredths d).negative = d.negative
    unfold toHundredths
    split
    · intro hsize
      have hcents : roundHalfUp (100 * d.coefficient) (10 ^ d.scale) ≠ 0 := by
        intro hzero
        exact hsize (by simp [Decimal.size, hzero])
      simp [hcents]
    · exact fun _ => rfl
  nonneg_round d h := by
    change (toHundredths d).negative = false
    unfold toHundredths
    split
    · rw [h]
      rfl
    · exact h
  write_eq d _ := by
    rw [← withPoint_eq]
    rfl

end QuoteBoard.Price
