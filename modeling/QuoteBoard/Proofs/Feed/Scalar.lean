/-
# The texts of numbers

The text of a number is a numeral that reads back: with a point or an exponent for the shortest
digits of a binary number, and plain for an integer. So numbers with the same text have the same
value. The converse holds of numbers of the same kind, and of an integer and a binary number as
long as they are below the limit up to which a whole binary number is written as an integer.
-/

import QuoteBoard.Feed.Scalar
import QuoteBoard.Proofs.Binary64.Shortest
import QuoteBoard.Proofs.Json.Numeral

namespace QuoteBoard

open Binary64 (natOfDigits)
open Json (Parts numeral? natOfDigits_eq natOfDigits_toDigits isDigit_of_mem_toDigits)

namespace Json

/-- The size of a numeral. -/
def Numeral.size (n : Numeral) : ℚ := n.digits * 10 ^ n.scale

/-- Only zero is written with a zero in front. -/
theorem head?_toDigits {n : Nat} (hn : n ≠ 0) : (Nat.toDigits 10 n).head? ≠ some '0' := by
  induction n using Nat.strongRecOn with
  | ind n ih =>
      rw [Nat.toDigits_eq_if (by decide)]
      split
      · rw [List.head?_cons, ne_eq, Option.some.injEq, Nat.digitChar_eq_zero]
        exact hn
      · rw [List.head?_append_of_ne_nil _ Nat.toDigits_ne_nil]
        exact ih (n / 10) (by omega) (by omega)

/-! ## Integers -/

/-- The parts of an integer. -/
def integerParts (i : Int) : Parts := ⟨decide (i < 0), Nat.toDigits 10 i.natAbs, [], none⟩

theorem wellFormed_integerParts (i : Int) : (integerParts i).WellFormed where
  whole_ne := Nat.toDigits_ne_nil
  whole_digits _ := isDigit_of_mem_toDigits
  no_zero h := by
    have hzero : i.natAbs = 0 := by
      by_contra hne
      exact head?_toDigits hne h
    change (Nat.toDigits 10 i.natAbs).length = 1
    rw [hzero]
    rfl
  fraction_digits c h := by cases h

theorem chars_integerParts (i : Int) : (toString i).toList = (integerParts i).chars := by
  cases i with
  | ofNat n =>
      change (Nat.repr n).toList = _
      rw [Nat.toList_repr]
      simp [integerParts, Parts.chars, Parts.point, Parts.power]
  | negSucc n =>
      change ("-" ++ Nat.repr (n + 1)).toList = _
      rw [String.toList_append, Nat.toList_repr]
      simp [integerParts, Parts.chars, Parts.point, Parts.power]

/-- An integer reads back from its text. -/
theorem numeral?_toString (i : Int) :
    numeral? (toString i).toList = some (⟨decide (i < 0), i.natAbs, 0, true⟩, []) := by
  rw [chars_integerParts, Json.numeral?_chars (wellFormed_integerParts i)]
  simp only [Parts.numeral, integerParts, List.append_nil, natOfDigits_toDigits]
  rfl

theorem toString_inj {i j : Int} : toString i = toString j ↔ i = j := by
  refine ⟨fun h => ?_, fun h => h ▸ rfl⟩
  have hread := numeral?_toString i
  rw [h, numeral?_toString, Option.some.injEq, Prod.mk.injEq, Numeral.mk.injEq,
    decide_eq_decide] at hread
  omega

end Json

namespace NumeralLayout

variable (negative : Bool) (d : Binary64.Decimal)

/-! ## Numerals with a point -/

/-- Digits with zeros in front, so that they are more than the places behind the point. -/
def padded (places : Nat) (digits : List Char) : List Char :=
  List.replicate (places + 1 - digits.length) '0' ++ digits

theorem length_padded (places : Nat) (digits : List Char) :
    (padded places digits).length = max (places + 1) digits.length := by
  rw [padded, List.length_append, List.length_replicate]
  omega

/-- There are digits behind the point. -/
theorem drop_padded_ne_nil (e : Nat) (digits : List Char) :
    (padded (e + 1) digits).drop ((padded (e + 1) digits).length - (e + 1)) ≠ [] := by
  rw [ne_eq, List.drop_eq_nil_iff, length_padded]
  omega

theorem isDigit_of_mem_padded {places : Nat} {digits : List Char}
    (hdigits : ∀ c ∈ digits, c.isDigit) {c : Char} (h : c ∈ padded places digits) : c.isDigit := by
  rcases List.mem_append.mp h with h | h
  · rw [List.eq_of_mem_replicate h]
    decide
  · exact hdigits c h

/-- The parts of a numeral with a point. -/
def pointParts : Parts :=
  match d.scale with
  | .ofNat e => ⟨negative, Nat.toDigits 10 d.digits ++ List.replicate e '0', ['0'], none⟩
  | .negSucc e =>
    let digits := padded (e + 1) (Nat.toDigits 10 d.digits)
    let whole := digits.length - (e + 1)
    ⟨negative, digits.take whole, digits.drop whole, none⟩

theorem point_of_ne_nil {fraction : List Char} (h : fraction ≠ []) :
    Parts.point fraction = '.' :: fraction := by
  cases fraction with
  | nil => exact absurd rfl h
  | cons c cs => rfl

theorem chars_pointParts : (pointParts negative d).chars =
    (if negative then ['-'] else []) ++ (withPoint d).toList := by
  unfold pointParts withPoint
  cases d.scale with
  | ofNat e => simp [Parts.chars, Parts.point, Parts.power]
  | negSucc e =>
      have hpadded : List.replicate (e + 1 + 1 - (Nat.toDigits 10 d.digits).length) '0' ++
          Nat.toDigits 10 d.digits = padded (e + 1) (Nat.toDigits 10 d.digits) := rfl
      simp only [← String.length_toList, Nat.toList_repr, String.toList_ofList, hpadded,
        Parts.chars, point_of_ne_nil (drop_padded_ne_nil _ _), Parts.power, List.append_nil]

theorem wellFormed_pointParts (hd : d.digits ≠ 0) : (pointParts negative d).WellFormed := by
  unfold pointParts
  cases d.scale with
  | ofNat e =>
      refine ⟨by simp [Nat.toDigits_ne_nil], fun c hc => ?_, fun hzero => ?_, by simp⟩
      · rcases List.mem_append.mp hc with hc | hc
        · exact isDigit_of_mem_toDigits hc
        · rw [List.eq_of_mem_replicate hc]
          decide
      · rw [List.head?_append_of_ne_nil _ Nat.toDigits_ne_nil] at hzero
        exact absurd hzero (Json.head?_toDigits hd)
  | negSucc e =>
      have hall (c : Char) : c ∈ padded (e + 1) (Nat.toDigits 10 d.digits) → c.isDigit :=
        isDigit_of_mem_padded fun _ => isDigit_of_mem_toDigits
      have hlength := length_padded (e + 1) (Nat.toDigits 10 d.digits)
      refine ⟨List.ne_nil_of_length_pos ?_, fun c hc => hall c (List.mem_of_mem_take hc),
        fun hzero => ?_, fun c hc => hall c (List.mem_of_mem_drop hc)⟩
      · rw [List.length_take]
        omega
      · rw [List.length_take]
        by_contra hlong
        -- nothing was padded then, and the digits begin with another one than zero
        have hsame : padded (e + 1) (Nat.toDigits 10 d.digits) = Nat.toDigits 10 d.digits := by
          rw [padded, show e + 1 + 1 - (Nat.toDigits 10 d.digits).length = 0 by omega,
            List.replicate_zero, List.nil_append]
        rw [List.head?_take, if_neg (by omega), hsame] at hzero
        exact Json.head?_toDigits hd hzero

theorem size_pointParts : (pointParts negative d).numeral.size = d.toRat := by
  unfold pointParts Parts.numeral Json.Numeral.size Binary64.Decimal.toRat
  cases d.scale with
  | ofNat e =>
      simp only [natOfDigits_eq, Nat.ofDigitChars_append, Nat.ofDigitChars_ten_toDigits,
        Nat.ofDigitChars_replicate_zero]
      -- the zero behind the point is a digit, too
      have hdigits : Nat.ofDigitChars 10 ['0'] (10 ^ e * d.digits) = 10 * (10 ^ e * d.digits) := rfl
      have hscale : (none : Option Int).getD 0 - (['0'].length : Nat) = -1 := rfl
      rw [hdigits, hscale, Int.ofNat_eq_natCast, zpow_natCast, zpow_neg_one]
      push_cast
      field_simp
  | negSucc e =>
      have hle : e + 1 ≤ (padded (e + 1) (Nat.toDigits 10 d.digits)).length := by
        rw [length_padded]
        omega
      have hdigits : natOfDigits (padded (e + 1) (Nat.toDigits 10 d.digits)) = d.digits := by
        rw [natOfDigits_eq, padded, Nat.ofDigitChars_append, Nat.ofDigitChars_replicate_zero,
          Nat.mul_zero, Nat.ofDigitChars_ten_toDigits]
      simp only [List.take_append_drop, hdigits]
      congr 2
      rw [Option.getD_none, List.length_drop, Nat.sub_sub_self hle, Int.negSucc_eq, zero_sub,
        Nat.cast_succ]

theorem negative_pointParts : (pointParts negative d).numeral.negative = negative := by
  unfold pointParts Parts.numeral
  cases d.scale <;> rfl

theorem plain_pointParts : (pointParts negative d).numeral.plain = false := by
  unfold pointParts Parts.numeral
  cases d.scale with
  | ofNat e => rfl
  | negSucc e =>
      exact Bool.and_eq_false_imp.mpr fun hempty =>
        absurd (List.isEmpty_iff.mp hempty) (drop_padded_ne_nil _ _)

/-! ## Numerals with an exponent -/

/-- The parts of a numeral with an exponent. -/
def exponentParts (lead : Int) : Parts :=
  ⟨negative, (Nat.toDigits 10 d.digits).take 1, (Nat.toDigits 10 d.digits).drop 1, some lead⟩

theorem chars_exponentParts (lead : Int) : (exponentParts negative d lead).chars =
    (if negative then ['-'] else []) ++ (withExponent d lead).toList := by
  have hsign : (if lead < 0 then "-" else "+").toList = [if lead < 0 then '-' else '+'] := by
    split <;> rfl
  unfold withExponent exponentParts Parts.chars
  rw [String.toList_append, String.toList_append, String.toList_append, hsign, Nat.toList_repr,
    Nat.toList_repr]
  congr 1
  cases Nat.toDigits 10 d.digits with
  | nil => rfl
  | cons first rest =>
      cases rest with
      | nil => simp [Parts.point, Parts.power]
      | cons next rest => simp [Parts.point, Parts.power]

theorem wellFormed_exponentParts (lead : Int) : (exponentParts negative d lead).WellFormed := by
  have hlength : ((Nat.toDigits 10 d.digits).take 1).length = 1 := by
    rw [List.length_take]
    exact Nat.min_eq_left Nat.length_toDigits_pos
  exact ⟨List.ne_nil_of_length_pos (by rw [exponentParts, hlength]; decide),
    fun c hc => isDigit_of_mem_toDigits (List.mem_of_mem_take hc), fun _ => hlength,
    fun c hc => isDigit_of_mem_toDigits (List.mem_of_mem_drop hc)⟩

theorem size_exponentParts : (exponentParts negative d
    (d.scale + (Nat.repr d.digits).length - 1)).numeral.size = d.toRat := by
  have hpos : 0 < (Nat.toDigits 10 d.digits).length := Nat.length_toDigits_pos
  simp only [exponentParts, Parts.numeral, Json.Numeral.size, Binary64.Decimal.toRat,
    List.take_append_drop, natOfDigits_toDigits, Option.getD_some, List.length_drop,
    ← String.length_toList, Nat.toList_repr]
  congr 2
  omega

/-! ## Reading back -/

/-- **A binary number reads back from its text.** The numeral has the sign of the number and the
value of its shortest digits, and it is not a plain one. -/
theorem numeral?_write (layout : NumeralLayout) {x : Binary64} (hx : ¬ x.isZero) :
    ∃ n : Json.Numeral, numeral? (layout.write x).toList = some (n, []) ∧
      n.negative = x.isNegative ∧ n.size = x.shortest.toRat ∧ n.plain = false := by
  have hdigits := Binary64.digits_shortest_ne_zero hx
  have hsign : (if x.isNegative then "-" else "").toList = if x.isNegative then ['-'] else [] := by
    split <;> rfl
  unfold write
  rw [if_neg hx, String.toList_append, hsign]
  by_cases hplain : layout.firstPlain ≤ x.shortest.scale + (Nat.repr x.shortest.digits).length - 1 ∧
    x.shortest.scale + (Nat.repr x.shortest.digits).length - 1 < layout.pastPlain
  · rw [if_pos hplain, ← chars_pointParts, Json.numeral?_chars (wellFormed_pointParts _ _ hdigits)]
    exact ⟨_, rfl, negative_pointParts _ _, size_pointParts _ _, plain_pointParts _ _⟩
  · rw [if_neg hplain, ← chars_exponentParts, Json.numeral?_chars (wellFormed_exponentParts _ _ _)]
    exact ⟨_, rfl, rfl, size_exponentParts _ _, Bool.and_false _⟩

/-- Numbers with the same text are equal. -/
theorem eq_of_write_eq {layout : NumeralLayout} {x y : Binary64} (hx : ¬ x.isZero)
    (hy : ¬ y.isZero) (h : layout.write x = layout.write y) : x = y := by
  obtain ⟨n, hn, hsign, hsize, -⟩ := numeral?_write layout hx
  obtain ⟨m, hm, hsign', hsize', -⟩ := numeral?_write layout hy
  rw [h, hm] at hn
  cases hn
  exact Binary64.ext_bits (hsign.symm.trans hsign')
    (Binary64.magnitudeBits_eq_of_shortest hx hy (hsize.symm.trans hsize'))

/-- The text of a binary number is not that of an integer. -/
theorem write_ne_toString {layout : NumeralLayout} {x : Binary64} (hx : ¬ x.isZero) (i : Int) :
    layout.write x ≠ toString i := by
  intro h
  obtain ⟨n, hn, -, -, hplain⟩ := numeral?_write layout hx
  rw [h, Json.numeral?_toString] at hn
  cases hn
  cases hplain

end NumeralLayout

namespace Json

/-- The exact value of a number. -/
def Number.toRat : Number → ℚ
  | .integer i => i
  | .binary x => x.toRat

/-- The number is spelled as an integer. -/
def Number.isInteger : Number → Bool
  | .integer _ => true
  | .binary _ => false

/-- A number is written as the integer that it is, or as a binary number that is not small and
whole. -/
theorem Number.text_cases (n : Number) :
    (∃ i : Int, n.text = toString i ∧ n.toRat = i ∧ (n.isInteger ∨ |n.toRat| < wholeLimit)) ∨
      ∃ x : Binary64, n = .binary x ∧ ¬ x.isZero ∧ n.text = numeralLayout.write x ∧
        ∀ i : Int, x.toRat = i → (wholeLimit : ℚ) ≤ |x.toRat| := by
  cases n with
  | integer i => exact Or.inl ⟨i, rfl, rfl, Or.inl rfl⟩
  | binary x =>
      cases hint : x.toInt? with
      | none =>
          refine Or.inr ⟨x, rfl, fun hx => ?_, by simp only [text, hint], fun i hi => ?_⟩
          · rw [Binary64.toInt?_of_isZero hx] at hint
            cases hint
          · -- only a number that is not finite has a value that is whole and no integer
            have hfinite : ¬ x.isFinite := fun h => by
              rw [Binary64.toInt?_eq_some_iff.mpr ⟨h, hi⟩] at hint
              cases hint
            rw [Binary64.abs_toRat]
            refine le_trans ?_ (Binary64.le_size_of_not_finite hfinite)
            norm_num [wholeLimit, Binary64.fractionCount]
      | some i =>
          have hvalue := (Binary64.toInt?_eq_some_iff.mp hint).2
          have hsize : |x.toRat| = (i.natAbs : ℚ) := by rw [hvalue, Nat.cast_natAbs, Int.cast_abs]
          by_cases hsmall : i.natAbs < wholeLimit
          · refine Or.inl ⟨i, by simp only [text, hint, if_pos hsmall], hvalue, Or.inr ?_⟩
            change |x.toRat| < _
            rw [hsize]
            exact_mod_cast hsmall
          · refine Or.inr ⟨x, rfl, fun hx => ?_, by simp only [text, hint, if_neg hsmall],
              fun _ _ => ?_⟩
            · rw [Binary64.toInt?_of_isZero hx] at hint
              cases hint
              exact hsmall (by decide)
            · rw [hsize]
              exact_mod_cast not_lt.mp hsmall

/-- **Numbers have the same text if they have the same value**, and are of the same kind or below
the limit up to which whole numbers are written as integers. -/
theorem Number.text_eq_iff (a b : Number) : a.text = b.text ↔
    a.toRat = b.toRat ∧ (a.isInteger = b.isInteger ∨ |a.toRat| < wholeLimit) := by
  rcases a.text_cases with ⟨i, htext, hvalue, hkind⟩ | ⟨x, rfl, hx, htext, hlarge⟩ <;>
    rcases b.text_cases with ⟨j, htext', hvalue', hkind'⟩ | ⟨y, rfl, hy, htext', hlarge'⟩
  · -- both are written as integers
    rw [htext, htext', toString_inj, hvalue, hvalue', Int.cast_inj]
    refine ⟨fun h => ⟨h, ?_⟩, fun h => h.1⟩
    rw [hvalue] at hkind
    rw [hvalue', ← h] at hkind'
    rcases hkind with hkind | hsmall
    · rcases hkind' with hkind' | hsmall
      · exact Or.inl (hkind.trans hkind'.symm)
      · exact Or.inr hsmall
    · exact Or.inr hsmall
  · -- the second one is large if it has the value of an integer
    rw [htext, htext']
    refine iff_of_false (NumeralLayout.write_ne_toString hy i).symm fun ⟨heq, hcases⟩ => ?_
    have hbig := hlarge' i (heq.symm.trans hvalue)
    change a.toRat = y.toRat at heq
    rw [← heq] at hbig
    rcases hcases with hsame | hsmall
    · exact absurd hbig (not_le.mpr (hkind.resolve_left (hsame ▸ Bool.false_ne_true)))
    · exact absurd hbig (not_le.mpr hsmall)
  · rw [htext, htext']
    refine iff_of_false (NumeralLayout.write_ne_toString hx j) fun ⟨heq, hcases⟩ => ?_
    have hbig := hlarge j (heq.trans hvalue')
    rcases hcases with hsame | hsmall
    · refine absurd (hkind'.resolve_left (hsame ▸ Bool.false_ne_true)) ?_
      rw [← heq]
      exact not_lt.mpr hbig
    · exact absurd hbig (not_le.mpr hsmall)
  · -- both are written as binary numbers
    rw [htext, htext']
    constructor
    · intro h
      rw [NumeralLayout.eq_of_write_eq hx hy h]
      exact ⟨rfl, Or.inl rfl⟩
    · rintro ⟨heq, -⟩
      rw [Binary64.eq_of_toRat_eq hx heq]

end Json

end QuoteBoard
