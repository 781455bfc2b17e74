/-
# Exactly rounded prices

The text of a price is the numeral of its exact value, rounded to hundredths with a half away
from zero. The way there leads by decimal numbers, which lose digits. That loss never matters:
a price halfway between two hundredths has three decimals at most and is kept as it is, and any
other one is farther from such a halfway point than what is lost.
-/

import QuoteBoard.Price.Text
import QuoteBoard.Proofs.Price.Decimal

namespace QuoteBoard.Price

/-- A value in hundredths: its size, rounded, a half away from zero. -/
def nearestCents (q : ℚ) : Nat := ⌊100 * |q| + 1 / 2⌋₊

theorem nearestCents_zero : nearestCents 0 = 0 := by
  rw [nearestCents, Nat.floor_eq_zero]
  norm_num

/-! ## Rounding -/

theorem nearestCents_toRat (x : Binary64) :
    nearestCents x.toRat = roundHalfUp (100 * x.magnitude.1) x.magnitude.2 := by
  rw [roundHalfUp_eq_floor x.magnitude_snd_pos, nearestCents, Binary64.abs_toRat,
    Binary64.size_eq_magnitude]
  push_cast
  rw [mul_div_assoc]

/-- Without a remainder there is nothing to round, whichever way a half goes. -/
theorem roundHalfEven_of_dvd {n d : Nat} (hd : 0 < d) (h : d ∣ n) :
    Binary64.roundHalfEven n d = roundHalfUp n d := by
  obtain ⟨k, rfl⟩ := h
  have hup : roundHalfUp (d * k) d = k := by
    rw [roundHalfUp, show 2 * (d * k) + d = d + 2 * d * k by ring,
      Nat.add_mul_div_left _ _ (by omega), Nat.div_eq_of_lt (by omega), Nat.zero_add]
  rw [hup, Binary64.roundHalfEven, Nat.mul_mod_right, Nat.mul_div_cancel_left _ hd]
  exact if_pos (by omega)

/-- A value that is no integer and whose denominator is `q` has no integer nearer than one part
of `q`, so whatever is nearer to it than that has the same integer below. -/
theorem floor_eq_of_close {n q : Nat} (hmod : n % q ≠ 0) {d : ℚ}
    (hclose : |d - n / q| < 1 / q) : ⌊d⌋₊ = ⌊(n : ℚ) / q⌋₊ := by
  rcases Nat.eq_zero_or_pos q with rfl | hpos
  · rw [Nat.cast_zero, div_zero, div_zero] at hclose
    exact absurd hclose (not_lt.mpr (abs_nonneg _))
  · have hq : (0 : ℚ) < q := Nat.cast_pos.mpr hpos
    have hsplit : (n : ℚ) / q = (n / q : Nat) + (n % q : Nat) / q := by
      rw [div_eq_iff hq.ne', add_mul, div_mul_cancel₀ _ hq.ne']
      exact_mod_cast (Nat.div_add_mod' n q).symm
    have hlow : (1 : ℚ) / q ≤ (n % q : Nat) / q := by
      gcongr
      exact_mod_cast Nat.one_le_iff_ne_zero.mpr hmod
    have hhigh : ((n % q : Nat) : ℚ) / q + 1 / q ≤ 1 := by
      rw [← add_div, div_le_one hq]
      exact_mod_cast Nat.mod_lt n hpos
    obtain ⟨hbelow, habove⟩ := abs_lt.mp hclose
    have hle : ((n / q : Nat) : ℚ) ≤ d := by linarith
    rw [Nat.floor_div_eq_div, Nat.floor_eq_iff (le_trans (Nat.cast_nonneg _) hle)]
    exact ⟨hle, by linarith⟩

/-! ## What is lost does not matter -/

/-- A number with a fraction has a significand of fifty-three bits over a power of two. -/
theorem magnitude_cases (x : Binary64) :
    x.magnitude.2 = 1 ∨ x.magnitude.1 < 2 * Binary64.fractionCount := by
  unfold Binary64.magnitude
  cases x.exponent with
  | ofNat e => exact Or.inl rfl
  | negSucc e =>
      refine Or.inr ?_
      change x.significand < _
      rw [Binary64.significand, Binary64.fractionField]
      have hlt := Nat.mod_lt x.bits.toNat (show 0 < Binary64.fractionCount by decide)
      split <;> omega

/-- A halfway point between hundredths has three decimals. -/
theorem exists_size_of_halfway {m d : Nat} (hm : m < 2 * Binary64.fractionCount) (hd : 0 < d)
    (hhalf : (200 * m + d) % (2 * d) = 0) : ∃ e : Decimal, e.size = (m : ℚ) / d := by
  obtain ⟨n, hn⟩ := Nat.dvd_of_mod_eq_zero hhalf
  have hdvd : d ∣ 1000 * m := by
    have hsum : d ∣ 200 * m + d := ⟨2 * n, by rw [hn]; ring⟩
    exact ((Nat.dvd_add_left dvd_rfl).mp hsum).trans ⟨5, by ring⟩
  obtain ⟨c, hc⟩ := hdvd
  have hlt : c < coefficientCount := by
    have hle : c ≤ 1000 * m := hc ▸ Nat.le_mul_of_pos_left c hd
    simp only [Binary64.fractionCount, coefficientCount] at hm ⊢
    omega
  refine ⟨⟨false, c, 3, hlt, by decide⟩, ?_⟩
  have hcast : (1000 : ℚ) * m = d * c := by exact_mod_cast hc
  have hne : (d : ℚ) ≠ 0 := Nat.cast_ne_zero.mpr hd.ne'
  change (c : ℚ) / 10 ^ 3 = _
  rw [div_eq_div_iff (by norm_num) hne]
  linarith

/-- What is near to a fraction has the same hundredths, unless the fraction is halfway. -/
theorem floor_eq_of_near {m d : Nat} (hm : m < 2 * Binary64.fractionCount) (hd : 0 < d)
    (hhalf : (200 * m + d) % (2 * d) ≠ 0) {y : ℚ}
    (hnear : |y - m / d| ≤ ((m : ℚ) / d + 1) / 10 ^ 22) :
    ⌊100 * y + 1 / 2⌋₊ = ⌊100 * ((m : ℚ) / d) + 1 / 2⌋₊ := by
  have hpos : (0 : ℚ) < d := Nat.cast_pos.mpr hd
  have hsig : (m : ℚ) < 2 ^ 53 := by
    have : ((2 * Binary64.fractionCount : Nat) : ℚ) = 2 ^ 53 := by norm_num [Binary64.fractionCount]
    rw [← this]
    exact_mod_cast hm
  by_cases hfine : (d : ℚ) ≤ 2 ^ 64
  · -- the halfway points are a good part of `1 / d` away
    have hfrac : 100 * ((m : ℚ) / d) + 1 / 2 = ((200 * m + d : Nat) : ℚ) / (2 * d : Nat) := by
      push_cast
      field_simp
      ring
    rw [hfrac]
    apply floor_eq_of_close hhalf
    rw [← hfrac]
    have hscaled : 100 * y + 1 / 2 - (100 * ((m : ℚ) / d) + 1 / 2) = 100 * (y - m / d) := by ring
    rw [hscaled, abs_mul, abs_of_pos (by norm_num : (0 : ℚ) < 100)]
    have hbound : 100 * (((m : ℚ) / d + 1) / 10 ^ 22) < 1 / (2 * d : Nat) := by
      push_cast
      rw [lt_div_iff₀ (by positivity)]
      have : (m : ℚ) / d * d = m := div_mul_cancel₀ _ hpos.ne'
      nlinarith
    exact lt_of_le_of_lt (by linarith) hbound
  · -- nothing is left of either
    have hsmall : (m : ℚ) / d < 1 / 1000 := by
      rw [div_lt_iff₀ hpos]
      linarith
    obtain ⟨-, hhigh⟩ := abs_le.mp hnear
    have hzero : ∀ q : ℚ, q < 1 / 200 → ⌊100 * q + 1 / 2⌋₊ = 0 := fun q hq =>
      Nat.floor_eq_zero.mpr (by linarith)
    rw [hzero y (by linarith), hzero _ (by linarith)]

/-- **The loss never crosses a halfway point.** A decimal number that is exact where it can be,
and close elsewhere, has the hundredths of the number that it was made of. -/
theorem floor_eq_of_kept {x : Binary64} (hrange : x.size ≤ largest) {y : ℚ}
    (hexact : (∃ e : Decimal, e.size = x.size) → y = x.size)
    (hclose : |y - x.size| ≤ (x.size + 1) / 10 ^ 22) :
    ⌊100 * y + 1 / 2⌋₊ = ⌊100 * x.size + 1 / 2⌋₊ := by
  have hden := x.magnitude_snd_pos
  have hcases := magnitude_cases x
  rw [Binary64.size_eq_magnitude] at hrange hexact hclose ⊢
  generalize x.magnitude.1 = m at *
  generalize x.magnitude.2 = d at *
  rcases hcases with rfl | hsig
  · -- a whole number in range
    have hm : m < coefficientCount := by
      rw [Nat.cast_one, div_one, largest, Nat.cast_le] at hrange
      exact lt_of_le_of_lt hrange (by decide)
    rw [hexact ⟨⟨false, m, 0, hm, by decide⟩, by simp [Decimal.size]⟩]
  · by_cases hhalf : (200 * m + d) % (2 * d) = 0
    · rw [hexact (exists_size_of_halfway hsig hden hhalf)]
    · exact floor_eq_of_near hsig hden hhalf hclose

/-! ## Texts -/

theorem point_mem_plainNumeral (cents : Nat) : '.' ∈ (plainNumeral cents).toList := by
  simp [plainNumeral]

theorem ne_placeholder_of_numeral (sign : String) (cents : Nat) :
    sign ++ plainNumeral cents ≠ placeholder := by
  intro h
  have hmem : '.' ∈ (sign ++ plainNumeral cents).toList := by
    rw [String.toList_append]
    exact List.mem_append_right _ (point_mem_plainNumeral cents)
  rw [h] at hmem
  exact absurd hmem (by decide)

/-! ## By way of decimal numbers -/

theorem toRat_unsignedZero (x : Binary64) : (unsignedZero x).toRat = x.toRat := by
  unfold unsignedZero
  split
  · next hzero =>
      rw [(Binary64.isZero_iff_toRat x).mp hzero]
      exact (Binary64.isZero_iff_toRat _).mp (by decide)
  · rfl

theorem isFinite_unsignedZero {x : Binary64} (h : x.isFinite) : (unsignedZero x).isFinite := by
  unfold unsignedZero
  split
  · decide
  · exact h

/-- Without the sign of zero, a sign means that the price is below zero. -/
theorem isNegative_unsignedZero_iff (x : Binary64) :
    (unsignedZero x).isNegative ↔ x.toRat < 0 := by
  unfold unsignedZero
  split
  · next hzero =>
      rw [(Binary64.isZero_iff_toRat x).mp hzero]
      decide
  · next hzero => rw [Binary64.toRat_neg_iff, and_iff_left hzero]

theorem unsignedZero_of_neg {x : Binary64} (h : x.toRat < 0) : unsignedZero x = x := by
  rw [Binary64.toRat_neg_iff] at h
  exact if_neg h.2

/-- A library loses the sign of a number below zero: the decimal number of it has no sign any
more when it has been rounded. -/
def LosesSign (library : DecimalLibrary) (x : Binary64) : Prop :=
  x.toRat < 0 ∧ ∃ d, library.retain? x = some d ∧ (library.round d).negative = false

section Library

variable {library : DecimalLibrary} {x : Binary64} {d : Decimal}

/-- What is kept of a number is rounded to the hundredths of the number itself. -/
theorem size_round_of_retain? (hdoc : library.AsDocumented) (hfinite : x.isFinite)
    (hretain : library.retain? x = some d) :
    (library.round d).size = (nearestCents x.toRat : ℚ) / 100 := by
  have hrange : x.size ≤ largest := by
    rw [← Binary64.abs_toRat, ← not_lt, ← hdoc.retain?_eq_none_iff x hfinite, hretain]
    exact Option.some_ne_none d
  have hexact := hdoc.exact_of_retain? x d hretain
  have hclose := hdoc.close_of_retain? x d hretain
  rw [Binary64.abs_toRat] at hexact hclose
  rw [hdoc.size_round, floor_eq_of_kept hrange hexact hclose, ← Binary64.abs_toRat, nearestCents]

/-- By way of a decimal number comes the rounded numeral, with the sign that is left. -/
theorem write_round_eq (hdoc : library.AsDocumented) (hfinite : x.isFinite)
    (hretain : library.retain? x = some d) :
    library.write (library.round d) = (if (library.round d).negative then "-" else "") ++
      plainNumeral (nearestCents x.toRat) := by
  have hscale := hdoc.scale_round d
  rw [hdoc.write_eq _ hscale,
    Decimal.cents_eq_of_size hscale (size_round_of_retain? hdoc hfinite hretain)]

/-- Beyond the decimal numbers a number is whole, and it is written as it is. -/
theorem writeExact_eq (hlarge : largest < |x.toRat|) :
    writeExact x = (if x.isNegative then "-" else "") ++ plainNumeral (nearestCents x.toRat) := by
  have hwhole : x.magnitude.2 = 1 := by
    refine (magnitude_cases x).resolve_right fun hsig => ?_
    rw [Binary64.abs_toRat, Binary64.size_eq_magnitude] at hlarge
    have hle : (x.magnitude.1 : ℚ) / x.magnitude.2 ≤ x.magnitude.1 :=
      div_le_self (Nat.cast_nonneg _) (by exact_mod_cast x.magnitude_snd_pos)
    have hlt : coefficientCount - 1 < x.magnitude.1 :=
      Nat.cast_lt.mp (lt_of_lt_of_le hlarge hle)
    simp only [coefficientCount, Binary64.fractionCount] at hlt hsig
    omega
  rw [writeExact, withPoint_eq, roundHalfEven_of_dvd x.magnitude_snd_pos (hwhole ▸ one_dvd _),
    ← nearestCents_toRat]

/-- A sign that is left after rounding is that of a number below zero, and it has not been
lost. -/
theorem negative_round_iff (hdoc : library.AsDocumented)
    (hretain : library.retain? (unsignedZero x) = some d) :
    (library.round d).negative = true ↔ x.toRat < 0 ∧ ¬ LosesSign library x := by
  have hsign := hdoc.negative_of_retain? _ d hretain
  constructor
  · intro hround
    have hneg : x.toRat < 0 := by
      rw [← isNegative_unsignedZero_iff, ← hsign]
      exact Bool.of_not_eq_false fun hd =>
        Bool.false_ne_true ((hdoc.nonneg_round d hd).symm.trans hround)
    refine ⟨hneg, ?_⟩
    rintro ⟨-, e, he, hlost⟩
    rw [unsignedZero_of_neg hneg, he] at hretain
    rw [← Option.some.inj hretain, hlost] at hround
    exact Bool.false_ne_true hround
  · rintro ⟨hneg, hkept⟩
    rw [unsignedZero_of_neg hneg] at hretain
    exact Bool.of_not_eq_false fun hround => hkept ⟨hneg, d, hretain, hround⟩

/-- By way of any library the text is the rounded numeral. The sign is that of the number, if the
library does not lose it. -/
theorem textVia_eq (hdoc : library.AsDocumented) (hfinite : x.isFinite) :
    ∃ sign : Bool, textVia library x =
        (if sign then "-" else "") ++ plainNumeral (nearestCents x.toRat) ∧
      (sign = true ↔ x.toRat < 0 ∧ ¬ LosesSign library x) := by
  have hfine := isFinite_unsignedZero hfinite
  rw [textVia, if_pos hfinite]
  cases hretain : library.retain? (unsignedZero x) with
  | some d =>
      refine ⟨_, ?_, negative_round_iff hdoc hretain⟩
      rw [← toRat_unsignedZero x]
      exact write_round_eq hdoc hfine hretain
  | none =>
      have hlarge := (hdoc.retain?_eq_none_iff _ hfine).mp hretain
      refine ⟨(unsignedZero x).isNegative, ?_, ?_⟩
      · rw [← toRat_unsignedZero x]
        exact writeExact_eq hlarge
      · rw [isNegative_unsignedZero_iff, iff_self_and]
        rintro hneg ⟨-, d, hd, -⟩
        rw [unsignedZero_of_neg hneg, hd] at hretain
        cases hretain

/-- Only where nothing is left of a number in hundredths a sign is lost. -/
theorem LosesSign.nearestCents_eq_zero (hdoc : library.AsDocumented) (hfinite : x.isFinite)
    (h : LosesSign library x) : nearestCents x.toRat = 0 := by
  obtain ⟨hneg, d, hretain, hlost⟩ := h
  by_contra hcents
  have hsize : (library.round d).size ≠ 0 := by
    rw [size_round_of_retain? hdoc hfinite hretain]
    exact div_ne_zero (Nat.cast_ne_zero.mpr hcents) (by norm_num)
  rw [hdoc.negative_round d hsize, hdoc.negative_of_retain? x d hretain,
    ((Binary64.toRat_neg_iff x).mp hneg).1] at hlost
  exact Bool.false_ne_true hlost.symm

end Library

/-- **The text of a price is its exact value, rounded to hundredths.** By way of every library of
decimal numbers it is the plain numeral of the value with two decimals, a half rounded away from
zero, with a minus sign in front of a price below zero, if and only if the library does not lose
the sign. It loses only the sign of a price that is rounded to zero hundredths, which is then
shown as `0.00`, as the two zeros are. No price is shown as the placeholder. -/
theorem textVia_eq_nearest_iff {library : DecimalLibrary} (hdoc : library.AsDocumented)
    {x : Binary64} (hfinite : x.isFinite) :
    (textVia library x =
        (if x.toRat < 0 then "-" else "") ++ plainNumeral (nearestCents x.toRat) ↔
      ¬ LosesSign library x) ∧
    (LosesSign library x → nearestCents x.toRat = 0 ∧ textVia library x = "0.00") ∧
    (x.isZero → textVia library x = "0.00") ∧
    textVia library x ≠ placeholder := by
  obtain ⟨sign, htext, hsign⟩ := textVia_eq hdoc hfinite
  have hzero : nearestCents x.toRat = 0 → sign = false → textVia library x = "0.00" := by
    intro hcents hplain
    rw [htext, hcents, hplain]
    decide
  refine ⟨⟨fun hclaim hlost => ?_, fun hkept => ?_⟩, fun hlost => ?_, fun hx => ?_,
    htext ▸ ne_placeholder_of_numeral _ _⟩
  · have hplain : sign = false := Bool.eq_false_iff.mpr fun h => (hsign.mp h).2 hlost
    rw [if_pos hlost.1, hlost.nearestCents_eq_zero hdoc hfinite,
      hzero (hlost.nearestCents_eq_zero hdoc hfinite) hplain] at hclaim
    exact absurd hclaim (by decide)
  · simp only [htext, hsign, hkept, not_false_eq_true, and_true]
  · have hcents := hlost.nearestCents_eq_zero hdoc hfinite
    exact ⟨hcents, hzero hcents (Bool.eq_false_iff.mpr fun h => (hsign.mp h).2 hlost)⟩
  · rw [Binary64.isZero_iff_toRat] at hx
    refine hzero (by rw [hx, nearestCents_zero]) (Bool.eq_false_iff.mpr fun h => ?_)
    exact absurd (hsign.mp h).1 (by rw [hx]; exact lt_irrefl 0)

/-- The library here loses the sign of a thousandth below zero. -/
theorem losesSign_thousandth : LosesSign cuttingLibrary ⟨0xBF50624DD2F1A9FC⟩ := by
  refine ⟨?_, cut ⟨0xBF50624DD2F1A9FC⟩ (by decide), retain?_cuttingLibrary (by decide) _,
    by decide⟩
  rw [Binary64.toRat_neg_iff]
  decide

theorem textVia_eq_nearest_iff_small :
    text ⟨0x3FC0000000000000⟩ = "0.13" ∧ text ⟨0xBF50624DD2F1A9FC⟩ = "0.00" := by
  have hdoc := cuttingLibrary_asDocumented
  constructor
  · -- an eighth, halfway between two hundredths
    have hkept : ¬ LosesSign cuttingLibrary ⟨0x3FC0000000000000⟩ := fun h =>
      absurd ((Binary64.toRat_neg_iff _).mp h.1).1 (by decide)
    have hnonneg : ¬ (⟨0x3FC0000000000000⟩ : Binary64).toRat < 0 := by
      rw [Binary64.toRat_neg_iff]
      decide
    have htext := (textVia_eq_nearest_iff hdoc
      (show (⟨0x3FC0000000000000⟩ : Binary64).isFinite by decide)).1.mpr hkept
    rw [if_neg hnonneg, nearestCents_toRat] at htext
    exact htext.trans (by decide)
  · exact ((textVia_eq_nearest_iff hdoc
      (show (⟨0xBF50624DD2F1A9FC⟩ : Binary64).isFinite by decide)).2.1 losesSign_thousandth).2

/-- Not every price below zero has a minus sign. -/
theorem not_forall_signed :
    cuttingLibrary.AsDocumented ∧ ¬ ∀ x : Binary64, x.isFinite →
      textVia cuttingLibrary x =
        (if x.toRat < 0 then "-" else "") ++ plainNumeral (nearestCents x.toRat) := by
  refine ⟨cuttingLibrary_asDocumented, fun h => ?_⟩
  have htext := h ⟨0xBF50624DD2F1A9FC⟩ (by decide)
  rw [if_pos losesSign_thousandth.1, nearestCents_toRat] at htext
  exact absurd htext (by decide)

end QuoteBoard.Price
