/-
# Shortest digits lie in the rounding interval

The numerals that round to a number fill an interval around it, up to the midpoints between the
number and its neighbours. Intervals of different numbers have nothing in common: adjacent ones
meet in a midpoint, and that belongs to the one with the even significand. The shortest digits
of a number lie in its interval, so they tell it apart from all others.
-/

import Mathlib.Algebra.Order.Floor.Semifield
import Mathlib.Data.Nat.Cast.Field
import Mathlib.Data.Rat.Floor
import QuoteBoard.Binary64.Shortest
import QuoteBoard.Proofs.Binary64.Value

namespace QuoteBoard.Binary64

/-! ## Rounding intervals -/

/-- A value lies in an interval. -/
def Interval.Contains (i : Interval) (q : ℚ) : Prop :=
  if i.closed then i.low / i.den ≤ q ∧ q ≤ i.high / i.den
  else i.low / i.den < q ∧ q < i.high / i.den

theorem Interval.Contains.low_le {i : Interval} {q : ℚ} (h : i.Contains q) : i.low / i.den ≤ q := by
  unfold Contains at h
  split at h
  · exact h.1
  · exact h.1.le

theorem Interval.Contains.le_high {i : Interval} {q : ℚ} (h : i.Contains q) :
    q ≤ i.high / i.den := by
  unfold Contains at h
  split at h
  · exact h.2
  · exact h.2.le

/-- An end belongs to an interval only if the ends do. -/
theorem Interval.Contains.closed {i : Interval} {q : ℚ} (h : i.Contains q)
    (hend : q = i.low / i.den ∨ q = i.high / i.den) : i.closed := by
  by_contra hopen
  rw [Contains, if_neg hopen] at h
  rcases hend with hlow | hhigh
  · exact h.1.ne' hlow
  · exact h.2.ne hhigh

/-- What is strictly between the ends belongs to an interval. -/
theorem Interval.contains_of_between {i : Interval} {q : ℚ} (hlow : i.low / i.den < q)
    (hhigh : q < i.high / i.den) : i.Contains q := by
  unfold Contains
  split
  · exact ⟨hlow.le, hhigh.le⟩
  · exact ⟨hlow, hhigh⟩

theorem scaleDown_snd_pos {num den : Nat} (hden : 0 < den) (e : Int) :
    0 < (scaleDown num den e).2 := by
  cases e with
  | ofNat e => exact Nat.mul_pos hden (Nat.pow_pos (by decide))
  | negSucc e => exact hden

theorem scaleDown_div {num den : Nat} (e : Int) :
    ((scaleDown num den e).1 : ℚ) / (scaleDown num den e).2 = num / den * 2 ^ (-e) := by
  cases e with
  | ofNat e =>
      simp only [scaleDown, Nat.pow_eq]
      push_cast
      rw [Int.ofNat_eq_natCast, zpow_neg, zpow_natCast, div_mul_eq_div_div,
        div_eq_mul_inv _ (2 ^ e : ℚ)]
  | negSucc e =>
      simp only [scaleDown, Nat.pow_eq]
      push_cast
      rw [Int.neg_negSucc, zpow_natCast, mul_div_right_comm]

/-- The denominator does not depend on the numerator. -/
theorem scaleDown_snd (k l den : Nat) (e : Int) :
    (scaleDown k den e).2 = (scaleDown l den e).2 := by
  cases e <;> rfl

section

variable (x : Binary64)

theorem den_pos : 0 < x.roundingInterval.den := scaleDown_snd_pos (by decide) _

theorem fraction_eq (k : Nat) :
    ((scaleDown k 4 (-x.exponent)).1 : ℚ) / x.roundingInterval.den =
      k / 4 * spacingAt x.magnitudeBits := by
  have hden : x.roundingInterval.den = (scaleDown k 4 (-x.exponent)).2 := scaleDown_snd _ _ _ _
  rw [hden, scaleDown_div, neg_neg, two_zpow_exponent]
  norm_num

theorem value_eq : (x.roundingInterval.value : ℚ) / x.roundingInterval.den = x.size := by
  change ((scaleDown (4 * x.significand) 4 (-x.exponent)).1 : ℚ) / _ = _
  rw [fraction_eq, size_eq_sizeAt, sizeAt, ← significand_eq]
  push_cast
  ring

/-- Above, the interval ends halfway to the next number. -/
theorem high_eq : (x.roundingInterval.high : ℚ) / x.roundingInterval.den =
    (sizeAt x.magnitudeBits + sizeAt (x.magnitudeBits + 1)) / 2 := by
  change ((scaleDown (4 * x.significand + 2) 4 (-x.exponent)).1 : ℚ) / _ = _
  rw [fraction_eq, sizeAt_succ, sizeAt, ← significand_eq]
  push_cast
  ring

/-- Below, the interval ends halfway to the number before. -/
theorem low_eq {n : Nat} (hn : x.magnitudeBits = n + 1) :
    (x.roundingInterval.low : ℚ) / x.roundingInterval.den = (sizeAt n + sizeAt (n + 1)) / 2 := by
  change ((scaleDown (4 * x.significand -
    if x.fractionField = 0 ∧ 1 < x.exponentField then 1 else 2) 4 (-x.exponent)).1 : ℚ) / _ = _
  rw [fraction_eq, fractionField_eq, exponentField_eq, significand_eq, hn]
  have hpos := significandAt_pos n
  have hbefore : sizeAt n = sizeAt (n + 1) - spacingAt n := by
    rw [sizeAt_succ]
    ring
  rw [hbefore, sizeAt, spacingAt_succ]
  split
  · rw [Nat.cast_sub (by omega)]
    push_cast
    ring
  · rw [Nat.cast_sub (by omega)]
    push_cast
    ring

end

theorem closed_iff (x : Binary64) : x.roundingInterval.closed ↔ x.magnitudeBits % 2 = 0 := by
  change (x.significand % 2 == 0) = true ↔ _
  rw [beq_iff_eq, significand_eq, significandAt]
  split <;>
    · simp only [fractionCount] at *
      omega

/-- Of two numbers the smaller one's interval ends before the larger one's begins. -/
theorem not_contains_of_lt {x y : Binary64} (hlt : x.magnitudeBits < y.magnitudeBits) {q : ℚ}
    (hx : x.roundingInterval.Contains q) : ¬ y.roundingInterval.Contains q := by
  intro hy
  obtain ⟨n, hn⟩ : ∃ n, y.magnitudeBits = n + 1 := Nat.exists_eq_succ_of_ne_zero (by omega)
  have hhigh := hx.le_high
  have hlow := hy.low_le
  rw [high_eq] at hhigh
  rw [low_eq y hn] at hlow
  rcases (show x.magnitudeBits ≤ n by omega).eq_or_lt with hsame | hbefore
  · -- the two are adjacent, and they share a midpoint
    rw [hsame] at hhigh
    have hmid : q = (sizeAt n + sizeAt (n + 1)) / 2 := le_antisymm hhigh hlow
    have hevenx := (closed_iff x).mp (hx.closed (Or.inr (by rw [high_eq, hsame, hmid])))
    have heveny := (closed_iff y).mp (hy.closed (Or.inl (by rw [low_eq y hn, hmid])))
    omega
  · have hfirst := strictMono_sizeAt hbefore
    have hsecond := strictMono_sizeAt.monotone (show x.magnitudeBits + 1 ≤ n + 1 by omega)
    linarith

/-- **Intervals of different numbers have nothing in common.** -/
theorem magnitudeBits_eq_of_contains {x y : Binary64} {q : ℚ}
    (hx : x.roundingInterval.Contains q) (hy : y.roundingInterval.Contains q) :
    x.magnitudeBits = y.magnitudeBits := by
  rcases Nat.lt_trichotomy x.magnitudeBits y.magnitudeBits with hlt | heq | hgt
  · exact absurd hy (not_contains_of_lt hlt hx)
  · exact heq
  · exact absurd hx (not_contains_of_lt hgt hy)

/-! ## Grids -/

section Ratio

variable {n d den e : Nat} {q : ℚ}

theorem div_le_iff_of_ratio (hd : 0 < d) (hden : 0 < den) (h : (n : ℚ) / d = q * den) :
    (e : ℚ) / den ≤ q ↔ e * d ≤ n := by
  have hd' : (0 : ℚ) < d := Nat.cast_pos.mpr hd
  rw [div_le_iff₀ (Nat.cast_pos.mpr hden), ← h, le_div_iff₀ hd']
  exact_mod_cast Iff.rfl

theorem le_div_iff_of_ratio (hd : 0 < d) (hden : 0 < den) (h : (n : ℚ) / d = q * den) :
    q ≤ (e : ℚ) / den ↔ n ≤ e * d := by
  have hd' : (0 : ℚ) < d := Nat.cast_pos.mpr hd
  rw [le_div_iff₀ (Nat.cast_pos.mpr hden), ← h, div_le_iff₀ hd']
  exact_mod_cast Iff.rfl

end Ratio

/-- The ends are compared with a value by way of a fraction. -/
theorem Interval.contains_iff_of_ratio {i : Interval} (hden : 0 < i.den) {n d : Nat} (hd : 0 < d)
    {q : ℚ} (h : (n : ℚ) / d = q * i.den) :
    (if i.closed then i.low * d ≤ n && n ≤ i.high * d else i.low * d < n && n < i.high * d) = true ↔
      i.Contains q := by
  unfold Contains
  split
  · rw [Bool.and_eq_true, decide_eq_true_iff, decide_eq_true_iff, div_le_iff_of_ratio hd hden h,
      le_div_iff_of_ratio hd hden h]
  · rw [Bool.and_eq_true, decide_eq_true_iff, decide_eq_true_iff, ← not_le, ← not_le, ← not_le,
      ← not_le, div_le_iff_of_ratio hd hden h, le_div_iff_of_ratio hd hden h]

/-- Membership on a grid is membership of the value. -/
theorem Interval.holds_iff {i : Interval} (hden : 0 < i.den) (k : Nat) (scale : Int) :
    i.holds k scale ↔ i.Contains (k * 10 ^ scale) := by
  cases scale with
  | ofNat e =>
      refine contains_iff_of_ratio hden Nat.one_pos ?_
      rw [Int.ofNat_eq_natCast, zpow_natCast]
      push_cast [Nat.pow_eq]
      rw [div_one]
  | negSucc e =>
      refine contains_iff_of_ratio hden (Nat.pow_pos (by decide)) ?_
      rw [zpow_negSucc]
      push_cast [Nat.pow_eq]
      rw [div_eq_mul_inv, mul_right_comm]

/-- The neighbours of the value on a grid enclose it. -/
theorem Interval.neighbour_le {i : Interval} (hden : 0 < i.den) (scale : Int) :
    ((i.neighbour scale).1 : ℚ) * 10 ^ scale ≤ i.value / i.den ∧
      (i.value : ℚ) / i.den < ((i.neighbour scale).1 + 1) * 10 ^ scale := by
  have hpos : (0 : ℚ) < 10 ^ scale := by positivity
  have hfloor : (i.neighbour scale).1 = ⌊(i.value : ℚ) / i.den / 10 ^ scale⌋₊ := by
    cases scale with
    | ofNat e =>
        rw [Int.ofNat_eq_natCast, zpow_natCast, div_div]
        change i.value / (i.den * 10 ^ e) = _
        rw [← Nat.floor_div_eq_div (K := ℚ)]
        push_cast
        rfl
    | negSucc e =>
        rw [zpow_negSucc, div_inv_eq_mul, div_mul_eq_mul_div]
        change i.value * 10 ^ (e + 1) / i.den = _
        rw [← Nat.floor_div_eq_div (K := ℚ)]
        push_cast
        rfl
  rw [hfloor, ← le_div_iff₀ hpos, ← div_lt_iff₀ hpos]
  exact ⟨Nat.floor_le (div_nonneg (by positivity) hpos.le), Nat.lt_floor_add_one _⟩

/-- A numeral found on a grid reads back. -/
theorem Interval.holds_of_onGrid? {i : Interval} {scale : Int} {k : Nat}
    (h : i.onGrid? scale = some k) : i.holds k scale := by
  unfold onGrid? at h
  generalize i.neighbour scale = found at h
  obtain ⟨m, half⟩ := found
  simp only at h
  split at h
  · next hboth =>
      simp only [Bool.and_eq_true] at hboth
      obtain ⟨⟨hbelow, -⟩, habove⟩ := hboth
      cases half with
      | lt => exact Option.some.inj h ▸ hbelow
      | gt => exact Option.some.inj h ▸ habove
      | eq =>
          rcases Nat.mod_two_eq_zero_or_one m with heven | hodd
          · rw [heven] at h
            exact Option.some.inj h ▸ hbelow
          · rw [hodd] at h
            exact Option.some.inj h ▸ habove
  · split at h
    · next hbelow =>
        rw [Bool.and_eq_true] at hbelow
        exact Option.some.inj h ▸ hbelow.1
    · split at h
      · next habove => exact Option.some.inj h ▸ habove
      · cases h

/-- A grid holds a numeral that reads back, if one of the neighbours does. -/
theorem Interval.onGrid?_ne_none {i : Interval} {scale : Int}
    (h : (i.neighbour scale).1 ≠ 0 ∧ i.holds (i.neighbour scale).1 scale ∨
      i.holds ((i.neighbour scale).1 + 1) scale) : i.onGrid? scale ≠ none := by
  unfold onGrid?
  generalize i.neighbour scale = found at h
  obtain ⟨m, half⟩ := found
  simp only at h ⊢
  rcases h with ⟨hne, hbelow⟩ | habove
  · simp only [hbelow, bne_iff_ne.mpr hne, Bool.and_self, Bool.true_and, if_true]
    split <;> exact Option.some_ne_none _
  · simp only [habove, Bool.and_true, if_true]
    split <;> exact Option.some_ne_none _

/-! ## Seventeen digits -/

theorem lt_pow_decimalLength (n : Nat) : n < 10 ^ decimalLength n :=
  (Nat.length_toDigits_le_iff (by decide) Nat.length_toDigits_pos).mp le_rfl

theorem pow_decimalLength_le {n : Nat} (hn : n ≠ 0) : 10 ^ (decimalLength n - 1) ≤ n := by
  rcases Nat.eq_zero_or_pos (decimalLength n - 1) with hone | hmore
  · rw [hone, pow_zero]
    exact Nat.one_le_iff_ne_zero.mpr hn
  · by_contra hlt
    have hshort := (Nat.length_toDigits_le_iff (by decide) hmore).mpr (not_le.mp hlt)
    change decimalLength n ≤ _ at hshort
    omega

/-- A value is at least the power of ten of its leading digit. -/
theorem zpow_floorLog10_le {num den : Nat} (hnum : 0 < num) (hden : 0 < den) :
    (10 : ℚ) ^ floorLog10 num den ≤ num / den := by
  have hden' : (0 : ℚ) < den := Nat.cast_pos.mpr hden
  unfold floorLog10
  split
  · next hle =>
      have hquotient := pow_decimalLength_le (Nat.div_pos hle hden).ne'
      have hlength : ((decimalLength (num / den) : Int) - 1) =
          ((decimalLength (num / den) - 1 : Nat) : Int) :=
        (Int.natCast_sub Nat.length_toDigits_pos).symm
      rw [hlength, zpow_natCast, le_div_iff₀ hden']
      exact_mod_cast (Nat.mul_le_mul_right den hquotient).trans (Nat.div_mul_le_self num den)
  · have hreaches : ∀ zeros : Nat, den ≤ num * 10 ^ zeros →
        (10 : ℚ) ^ (-(zeros : Int)) ≤ num / den := by
      intro zeros hle
      rw [zpow_neg, zpow_natCast, ← one_div, div_le_div_iff₀ (by positivity) hden', one_mul]
      exact_mod_cast hle
    have hlength : 0 < decimalLength ((den + num - 1) / num) := Nat.length_toDigits_pos
    have hbound := lt_pow_decimalLength ((den + num - 1) / num)
    dsimp only
    split
    · apply hreaches
      have hsplit := Nat.div_add_mod (den + num - 1) num
      have hrest := Nat.mod_lt (den + num - 1) hnum
      have hmore := Nat.mul_le_mul_left num hbound.le
      omega
    · next hreach =>
        rw [show ((decimalLength ((den + num - 1) / num) : Int) - 1) =
          ((decimalLength ((den + num - 1) / num) - 1 : Nat) : Int) from
            (Int.natCast_sub hlength).symm]
        exact hreaches _ (not_lt.mp hreach)

/-- The numbers lie as dense above a number as below it, or there are at most half as many
significands to be told apart. -/
theorem significandAt_cases (n : Nat) :
    spacingAt (n + 1) = spacingAt n ∧ significandAt (n + 1) < 2 * fractionCount ∨
      significandAt (n + 1) = fractionCount := by
  rw [spacingAt_succ]
  split
  · next hgrows =>
      refine Or.inr ?_
      rw [significandAt, if_neg (by omega), hgrows.1, Nat.add_zero]
  · refine Or.inl ⟨rfl, ?_⟩
    have hlt := Nat.mod_lt (n + 1) (show 0 < fractionCount by decide)
    unfold significandAt
    split <;> omega

/-- What is less than half the spacing away rounds to a number. -/
theorem contains_of_near {x : Binary64} {n : Nat} (hn : x.magnitudeBits = n + 1) {q : ℚ}
    (hlow : x.size - spacingAt n / 2 < q) (hhigh : q < x.size + spacingAt (n + 1) / 2) :
    x.roundingInterval.Contains q := by
  have hsize : x.size = sizeAt (n + 1) := by rw [size_eq_sizeAt, hn]
  have hbefore := sizeAt_succ n
  have hafter := sizeAt_succ (n + 1)
  apply Interval.contains_of_between
  · rw [low_eq x hn]
    linarith
  · rw [high_eq, hn]
    linarith

/-- **Seventeen digits suffice.** The seventeenth digit counts for less than the spacing of the
numbers, and just above a power of two for less than half of it. -/
theorem onGrid?_ne_none {x : Binary64} (hx : ¬ x.isZero) {scale : Int}
    (hscale : (10 : ℚ) ^ 16 * 10 ^ scale ≤ x.size) : x.roundingInterval.onGrid? scale ≠ none := by
  have hden := den_pos x
  obtain ⟨n, hn⟩ := exists_magnitudeBits_eq_succ hx
  have hsize : x.size = significandAt (n + 1) * spacingAt (n + 1) := by
    rw [size_eq_sizeAt, hn, sizeAt]
  have hspacing := spacingAt_pos (n + 1)
  have hspacing' := spacingAt_pos n
  have hgrid : (0 : ℚ) < 10 ^ scale := by positivity
  obtain ⟨hbelow, habove⟩ := Interval.neighbour_le hden scale
  rw [value_eq] at hbelow habove
  apply Interval.onGrid?_ne_none
  rw [Interval.holds_iff hden, Interval.holds_iff hden]
  push_cast
  generalize (x.roundingInterval.neighbour scale).1 = k at *
  generalize (10 : ℚ) ^ scale = grid at *
  rcases significandAt_cases n with ⟨hsame, hsig⟩ | hsig
  · have hfine : grid < spacingAt n := by
      have hcast : (significandAt (n + 1) : ℚ) < 10 ^ 16 :=
        lt_of_lt_of_le (Nat.cast_lt.mpr hsig) (by norm_num [fractionCount])
      rw [← hsame]
      nlinarith
    have hk : k ≠ 0 := by
      rintro rfl
      rw [Nat.cast_zero] at habove
      linarith
    by_cases hnear : x.size - k * grid < spacingAt n / 2
    · exact Or.inl ⟨hk, contains_of_near hn (by linarith) (by linarith)⟩
    · exact Or.inr (contains_of_near hn (by linarith) (by rw [hsame]; linarith))
  · have hfine : grid < spacingAt (n + 1) / 2 := by
      have hcast : (significandAt (n + 1) : ℚ) ≤ 10 ^ 16 / 2 - 1 := by
        rw [hsig]
        norm_num [fractionCount]
      nlinarith
    exact Or.inr (contains_of_near hn (by linarith) (by linarith))

/-! ## The search -/

/-- The value of a decimal numeral. -/
def Decimal.toRat (d : Decimal) : ℚ := d.digits * 10 ^ d.scale

/-- The search ends at a numeral in the interval, at the latest on the last grid. -/
theorem contains_shortestFrom {i : Interval} (hden : 0 < i.den) {lead : Int} {length more : Nat}
    (hlast : i.onGrid? (lead - (length + more : Nat) + 1) ≠ none) :
    i.Contains (shortestFrom i lead length (more + 1)).toRat := by
  induction more generalizing length with
  | zero =>
      rw [shortestFrom]
      cases hfound : i.onGrid? (lead - length + 1) with
      | none => exact absurd hfound hlast
      | some k => exact (Interval.holds_iff hden _ _).mp (Interval.holds_of_onGrid? hfound)
  | succ more ih =>
      rw [shortestFrom]
      cases hfound : i.onGrid? (lead - length + 1) with
      | none =>
          refine ih ?_
          rwa [Nat.add_right_comm]
      | some k => exact (Interval.holds_iff hden _ _).mp (Interval.holds_of_onGrid? hfound)

theorem pow_zeros_dvd (n : Nat) :
    10 ^ ((Nat.toDigits 10 n).reverse.takeWhile (· == '0')).length ∣ n := by
  induction n using Nat.strongRecOn with
  | ind n ih =>
      rw [Nat.toDigits_eq_if (by decide)]
      split
      · rw [List.reverse_singleton, List.takeWhile_cons]
        split
        · next hzero =>
            rw [Nat.digitChar_eq_zero.mp (beq_iff_eq.mp hzero)]
            exact Nat.dvd_zero _
        · exact Nat.one_dvd n
      · rw [List.reverse_append, List.reverse_singleton, List.singleton_append, List.takeWhile_cons]
        split
        · next hzero =>
            have hmod : n % 10 = 0 := Nat.digitChar_eq_zero.mp (beq_iff_eq.mp hzero)
            have hrest := Nat.mul_dvd_mul_left 10 (ih (n / 10) (by omega))
            rw [Nat.mul_div_cancel' (Nat.dvd_of_mod_eq_zero hmod)] at hrest
            rwa [List.length_cons, pow_succ']
        · exact Nat.one_dvd n

/-- Zeros taken off the end go into the scale. -/
theorem toRat_normalize (d : Decimal) : d.normalize.toRat = d.toRat := by
  have hdvd := pow_zeros_dvd d.digits
  unfold Decimal.normalize Decimal.toRat
  dsimp only
  generalize ((Nat.toDigits 10 d.digits).reverse.takeWhile (· == '0')).length = zeros at hdvd ⊢
  rw [Nat.pow_eq, Nat.cast_div hdvd (by positivity), zpow_add₀ (by norm_num), zpow_natCast]
  push_cast
  field_simp

/-- **The shortest digits of a number lie in its interval.** -/
theorem contains_shortest {x : Binary64} (hx : ¬ x.isZero) :
    x.roundingInterval.Contains x.shortest.toRat := by
  have hden := den_pos x
  have hvalue := value_eq x
  have hpos := (size_pos_iff x).mpr hx
  have hnum : 0 < x.roundingInterval.value := by
    rw [← hvalue, div_pos_iff_of_pos_right (Nat.cast_pos.mpr hden)] at hpos
    exact Nat.cast_pos.mp hpos
  rw [shortest, toRat_normalize]
  apply contains_shortestFrom hden
  apply onGrid?_ne_none hx
  rw [← hvalue]
  refine le_trans (le_of_eq ?_) (zpow_floorLog10_le hnum hden)
  rw [← zpow_natCast, ← zpow_add₀ (by norm_num)]
  congr 1
  push_cast
  ring

/-- There are shortest digits other than zero. -/
theorem digits_shortest_ne_zero {x : Binary64} (hx : ¬ x.isZero) : x.shortest.digits ≠ 0 := by
  obtain ⟨n, hn⟩ := exists_magnitudeBits_eq_succ hx
  have hlow := (contains_shortest hx).low_le
  have hpos : sizeAt n < sizeAt (n + 1) := strictMono_sizeAt (Nat.lt_succ_self n)
  have hnonneg : 0 ≤ sizeAt n := sizeAt_zero ▸ strictMono_sizeAt.monotone (Nat.zero_le n)
  intro hzero
  rw [low_eq x hn, Decimal.toRat, hzero, Nat.cast_zero, zero_mul] at hlow
  linarith

/-- Numbers with the same shortest digits are equal up to their signs. -/
theorem magnitudeBits_eq_of_shortest {x y : Binary64} (hx : ¬ x.isZero) (hy : ¬ y.isZero)
    (h : x.shortest.toRat = y.shortest.toRat) : x.magnitudeBits = y.magnitudeBits :=
  magnitudeBits_eq_of_contains (contains_shortest hx) (h ▸ contains_shortest hy)

end QuoteBoard.Binary64
