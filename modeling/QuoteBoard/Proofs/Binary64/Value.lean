/-
# The value of a binary number

A finite number stands for an exact rational, which `toRat` writes out. Below the sign, the
bits of the numbers count them in ascending order of size: from one number to the next the size
grows by the spacing at the first, so two numbers of one value are the same number, or both zero.
-/

import Mathlib.Algebra.Order.Field.Power
import Mathlib.Algebra.Order.Floor.Semiring
import Mathlib.Algebra.Order.Ring.Rat
import Mathlib.Order.Monotone.Basic
import Mathlib.Tactic.FieldSimp
import Mathlib.Tactic.Linarith
import Mathlib.Tactic.Positivity
import Mathlib.Tactic.Ring
import QuoteBoard.Binary64.Basic

namespace QuoteBoard.Binary64

/-- The exact size of a finite number. -/
def size (x : Binary64) : ℚ := x.significand * 2 ^ x.exponent

/-- The exact value of a finite number. -/
def toRat (x : Binary64) : ℚ := if x.isNegative then -x.size else x.size

theorem size_nonneg (x : Binary64) : 0 ≤ x.size := by
  unfold size
  positivity

theorem abs_toRat (x : Binary64) : |x.toRat| = x.size := by
  unfold toRat
  split
  · rw [abs_neg, abs_of_nonneg x.size_nonneg]
  · rw [abs_of_nonneg x.size_nonneg]

/-- The size as the fraction of natural numbers that the printers compute with. -/
theorem size_eq_magnitude (x : Binary64) : x.size = x.magnitude.1 / x.magnitude.2 := by
  unfold size magnitude
  cases x.exponent with
  | ofNat e => simp
  | negSucc e =>
      rw [zpow_negSucc]
      push_cast [Nat.pow_eq]
      rw [div_eq_mul_inv]

/-! ## Numbers in ascending order -/

/-- The sixty-three bits below the sign, as a number. -/
def magnitudeBits (x : Binary64) : Nat := x.bits.toNat % signWeight

/-- The significand that some magnitude bits hold. -/
def significandAt (n : Nat) : Nat :=
  if n / fractionCount = 0 then n % fractionCount else fractionCount + n % fractionCount

/-- The distance from the number with some magnitude bits to the next one. -/
def spacingAt (n : Nat) : ℚ := 2 ^ ((max (n / fractionCount) 1 : Nat) - 1075 : Int)

/-- The size of the number with some magnitude bits. -/
def sizeAt (n : Nat) : ℚ := significandAt n * spacingAt n

theorem significandAt_pos (n : Nat) : 0 < significandAt (n + 1) := by
  unfold significandAt
  split <;>
    · simp only [fractionCount] at *
      omega

theorem exponentField_eq (x : Binary64) :
    x.exponentField = x.magnitudeBits / fractionCount := by
  simp only [exponentField, magnitudeBits, fractionCount, signWeight]
  omega

theorem fractionField_eq (x : Binary64) :
    x.fractionField = x.magnitudeBits % fractionCount := by
  simp only [fractionField, magnitudeBits, fractionCount, signWeight]
  omega

theorem significand_eq (x : Binary64) : x.significand = significandAt x.magnitudeBits := by
  rw [significand, significandAt, exponentField_eq, fractionField_eq]

theorem two_zpow_exponent (x : Binary64) : (2 : ℚ) ^ x.exponent = spacingAt x.magnitudeBits := by
  rw [exponent, spacingAt, exponentField_eq]

theorem size_eq_sizeAt (x : Binary64) : x.size = sizeAt x.magnitudeBits := by
  rw [size, sizeAt, significand_eq, two_zpow_exponent]

theorem isFinite_iff (x : Binary64) :
    x.isFinite ↔ x.magnitudeBits < specialExponent * fractionCount := by
  have hbits := x.bits.toNat_lt
  rw [isFinite, exponentField_eq, bne_iff_ne]
  simp only [magnitudeBits, specialExponent, fractionCount, signWeight]
  omega

theorem isZero_iff (x : Binary64) : x.isZero ↔ x.magnitudeBits = 0 := by
  rw [isZero, exponentField_eq, fractionField_eq, Bool.and_eq_true, beq_iff_eq, beq_iff_eq]
  simp only [fractionCount]
  omega

theorem exists_magnitudeBits_eq_succ {x : Binary64} (hx : ¬ x.isZero) :
    ∃ n, x.magnitudeBits = n + 1 :=
  Nat.exists_eq_succ_of_ne_zero fun h => hx ((isZero_iff x).mpr h)

/-- A number is its sign and its magnitude bits. -/
theorem ext_bits {x y : Binary64} (hsign : x.isNegative = y.isNegative)
    (hbits : x.magnitudeBits = y.magnitudeBits) : x = y := by
  have hx := x.bits.toNat_lt
  have hy := y.bits.toNat_lt
  rw [isNegative, isNegative, decide_eq_decide] at hsign
  simp only [magnitudeBits, signWeight] at hsign hbits
  obtain ⟨bitsx⟩ := x
  obtain ⟨bitsy⟩ := y
  exact congrArg Binary64.mk (UInt64.toNat_inj.mp (by dsimp only at *; omega))

theorem spacingAt_pos (n : Nat) : 0 < spacingAt n := by
  unfold spacingAt
  positivity

/-- The exponent grows after the last significand. -/
theorem div_succ (n : Nat) : (n + 1) / fractionCount =
    n / fractionCount + if (n + 1) % fractionCount = 0 then 1 else 0 := by
  by_cases hgrows : (n + 1) % fractionCount = 0
  · rw [if_pos hgrows]
    simp only [fractionCount] at hgrows ⊢
    omega
  · rw [if_neg hgrows]
    simp only [fractionCount] at hgrows ⊢
    omega

theorem two_zpow_succ (k : Nat) :
    (2 : ℚ) ^ ((k + 1 : Nat) - 1075 : Int) = 2 * 2 ^ ((k : Int) - 1075) := by
  rw [← zpow_one_add₀ two_ne_zero]
  congr 1
  push_cast
  ring

/-- The spacing doubles where the exponent grows, except from the subnormal numbers on. -/
theorem spacingAt_succ (n : Nat) : spacingAt (n + 1) =
    if (n + 1) % fractionCount = 0 ∧ 1 < (n + 1) / fractionCount then 2 * spacingAt n
    else spacingAt n := by
  rw [spacingAt, spacingAt, div_succ]
  by_cases hgrows : (n + 1) % fractionCount = 0
  · rw [if_pos hgrows]
    rcases Nat.eq_zero_or_pos (n / fractionCount) with hzero | hpos
    · rw [hzero, if_neg fun h => absurd h.2 (by decide)]
      rfl
    · rw [if_pos ⟨hgrows, Nat.lt_succ_of_le hpos⟩, Nat.max_eq_left (Nat.le_add_left 1 _),
        Nat.max_eq_left hpos, two_zpow_succ]
  · rw [if_neg hgrows, if_neg fun h => hgrows h.1, Nat.add_zero]

/-- **The next number is larger by the spacing.** Also where the exponent grows: the last
significand of one exponent is followed by the first of the next. -/
theorem sizeAt_succ (n : Nat) : sizeAt (n + 1) = sizeAt n + spacingAt n := by
  by_cases hgrows : (n + 1) % fractionCount = 0
  · have hlast : n % fractionCount = fractionCount - 1 := by
      simp only [fractionCount] at hgrows ⊢
      omega
    have hdiv : (n + 1) / fractionCount = n / fractionCount + 1 := by rw [div_succ, if_pos hgrows]
    rw [sizeAt, sizeAt, significandAt, significandAt, spacingAt_succ, hdiv, hgrows, hlast,
      if_neg (Nat.succ_ne_zero _)]
    rcases Nat.eq_zero_or_pos (n / fractionCount) with hzero | hpos
    · rw [hzero, if_neg fun h => absurd h.2 (by decide), if_pos rfl]
      simp only [fractionCount]
      push_cast
      ring
    · rw [if_pos ⟨rfl, Nat.lt_succ_of_le hpos⟩, if_neg hpos.ne']
      simp only [fractionCount]
      push_cast
      ring
  · have hmod : (n + 1) % fractionCount = n % fractionCount + 1 := by
      simp only [fractionCount] at hgrows ⊢
      omega
    have hdiv : (n + 1) / fractionCount = n / fractionCount := by rw [div_succ, if_neg hgrows]; rfl
    have hspacing : spacingAt (n + 1) = spacingAt n := by
      rw [spacingAt_succ, if_neg fun h => hgrows h.1]
    rw [sizeAt, sizeAt, significandAt, significandAt, hspacing, hdiv, hmod]
    split <;>
      · push_cast
        ring

theorem strictMono_sizeAt : StrictMono sizeAt :=
  strictMono_nat_of_lt_succ fun n => by
    rw [sizeAt_succ]
    exact lt_add_of_pos_right _ (spacingAt_pos n)

theorem sizeAt_zero : sizeAt 0 = 0 := by
  simp [sizeAt, significandAt]

theorem isZero_iff_size (x : Binary64) : x.isZero ↔ x.size = 0 := by
  rw [isZero_iff, size_eq_sizeAt, ← sizeAt_zero, strictMono_sizeAt.injective.eq_iff]

theorem isZero_iff_toRat (x : Binary64) : x.isZero ↔ x.toRat = 0 := by
  rw [isZero_iff_size, ← abs_toRat, abs_eq_zero]

theorem size_pos_iff (x : Binary64) : 0 < x.size ↔ ¬ x.isZero := by
  rw [isZero_iff_size, lt_iff_le_and_ne, and_iff_right x.size_nonneg, ne_comm]

/-- A number is below zero if its sign is set and it is not zero. -/
theorem toRat_neg_iff (x : Binary64) : x.toRat < 0 ↔ x.isNegative ∧ ¬ x.isZero := by
  rw [← size_pos_iff, toRat]
  split
  · next h => simp [h]
  · next h => simp [h, x.size_nonneg]

/-- Numbers other than zero are told apart by their values. -/
theorem eq_of_toRat_eq {x y : Binary64} (hzero : ¬ x.isZero) (h : x.toRat = y.toRat) : x = y := by
  have hsize : x.size = y.size := by rw [← abs_toRat, ← abs_toRat, h]
  have hpos := (size_pos_iff x).mpr hzero
  have hsizeAt : sizeAt x.magnitudeBits = sizeAt y.magnitudeBits := by
    rw [← size_eq_sizeAt, ← size_eq_sizeAt, hsize]
  refine ext_bits ?_ (strictMono_sizeAt.injective hsizeAt)
  rw [toRat, toRat] at h
  cases hx : x.isNegative <;> cases hy : y.isNegative <;> simp only [hx, hy] at h ⊢ <;>
    · simp only [if_true, Bool.false_eq_true, if_false] at h
      linarith

/-- A number that is not finite would be larger than any finite one. -/
theorem le_size_of_not_finite {x : Binary64} (h : ¬ x.isFinite) : (fractionCount : ℚ) ≤ x.size := by
  rw [isFinite_iff, not_lt] at h
  have hmono := strictMono_sizeAt.monotone h
  rw [← size_eq_sizeAt] at hmono
  refine le_trans ?_ hmono
  have hspacing : (1 : ℚ) ≤ spacingAt (specialExponent * fractionCount) :=
    one_le_zpow₀ (by norm_num) (by decide)
  have hsignificand : significandAt (specialExponent * fractionCount) = fractionCount := by decide
  rw [sizeAt, hsignificand]
  exact le_mul_of_one_le_right (Nat.cast_nonneg _) hspacing

/-- The whole multiples of a denominator are the fractions that are integers. -/
theorem natCast_div_eq_intCast_iff {n d : Nat} (hd : 0 < d) {i : Int} :
    (n : ℚ) / d = i ↔ n % d = 0 ∧ ((n / d : Nat) : Int) = i := by
  have hne : (d : ℚ) ≠ 0 := Nat.cast_ne_zero.mpr hd.ne'
  rw [div_eq_iff hne]
  constructor
  · intro h
    have heq : (n : Int) = i * d := by exact_mod_cast h
    have hmod : n % d = 0 := by
      have : (n : Int) % d = 0 := by rw [heq, Int.mul_emod_left]
      exact_mod_cast this
    refine ⟨hmod, ?_⟩
    rw [Int.natCast_div, heq, Int.mul_ediv_cancel _ (by exact_mod_cast hd.ne')]
  · rintro ⟨hmod, rfl⟩
    exact_mod_cast (Nat.div_mul_cancel (Nat.dvd_of_mod_eq_zero hmod)).symm

/-- The integer of a number is its value, if that is one. -/
theorem toInt?_eq_some_iff {x : Binary64} {i : Int} :
    x.toInt? = some i ↔ x.isFinite ∧ x.toRat = i := by
  have hwhole (j : Int) : x.size = j ↔ x.magnitude.1 % x.magnitude.2 = 0 ∧
      ((x.magnitude.1 / x.magnitude.2 : Nat) : Int) = j := by
    rw [size_eq_magnitude]
    exact natCast_div_eq_intCast_iff x.magnitude_snd_pos
  unfold toInt? toRat
  by_cases hfinite : x.isFinite
  · simp only [hfinite, if_true, true_and]
    cases x.isNegative with
    | false =>
        simp only [Bool.false_eq_true, if_false, hwhole]
        split <;> simp [*]
    | true =>
        simp only [if_true, neg_eq_iff_eq_neg, ← Int.cast_neg, hwhole]
        split <;> simp [*, neg_eq_iff_eq_neg]
  · simp [hfinite]

theorem toInt?_of_isZero {x : Binary64} (hx : x.isZero) : x.toInt? = some 0 := by
  rw [toInt?_eq_some_iff, Int.cast_zero, ← isZero_iff_toRat]
  refine ⟨?_, hx⟩
  rw [isFinite_iff, (isZero_iff x).mp hx]
  decide

end QuoteBoard.Binary64
