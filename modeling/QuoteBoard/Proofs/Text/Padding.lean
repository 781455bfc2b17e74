/-
# Blanks around a text

A text is padded by blanks before and behind it. Texts that are padded from the same one are
trimmed to the same, and a trimmed text has lost nothing but its padding, so to be padded alike
and to be trimmed alike is one thing. The case of letters is independent of it, because no letter
is blank in either case.
-/

import QuoteBoard.Text.Blank
import Mathlib.Data.List.TakeWhile

namespace QuoteBoard.Text

/-- A text with blanks around it, which need not be there. -/
def Pads (core s : String) : Prop :=
  ∃ front back : List Char, (∀ c ∈ front, isBlank c = true) ∧ (∀ c ∈ back, isBlank c = true) ∧
    s.toList = front ++ core.toList ++ back

/-- Two texts that differ at most in the blanks around them. -/
def SameText (s t : String) : Prop := ∃ core, Pads core s ∧ Pads core t

/-- Two texts that differ at most in the blanks around them and in the case of ASCII letters. -/
def SameCode (s t : String) : Prop :=
  ∃ core core', Pads core s ∧ Pads core' t ∧ core.toUpper = core'.toUpper

/-! ## Trimming -/

/-- Blanks around characters are trimmed off. -/
theorem trimChars_append {front back : List Char} (hfront : ∀ c ∈ front, isBlank c = true)
    (hback : ∀ c ∈ back, isBlank c = true) (cs : List Char) :
    trimChars (front ++ cs ++ back) = trimChars cs := by
  have hreverse : ∀ c ∈ back.reverse, isBlank c = true :=
    fun c hc => hback c (List.mem_reverse.mp hc)
  rw [trimChars, List.append_assoc, List.dropWhile_append_of_pos hfront, List.dropWhile_append]
  split
  · next hempty =>
      -- blanks only: nothing is left in front of those behind, and these go as well
      rw [List.dropWhile_eq_nil_iff.mpr hback, trimChars, List.isEmpty_iff.mp hempty]
  · rw [List.reverse_append, List.dropWhile_append_of_pos hreverse, trimChars]

/-- What is trimmed off are blanks around the rest. -/
theorem exists_padding (cs : List Char) :
    ∃ front back, (∀ c ∈ front, isBlank c = true) ∧ (∀ c ∈ back, isBlank c = true) ∧
      cs = front ++ trimChars cs ++ back := by
  have hblank (xs : List Char) : ∀ c ∈ xs.takeWhile isBlank, isBlank c = true :=
    fun c hc => List.all_eq_true.mp List.all_takeWhile c hc
  let rest := (cs.dropWhile isBlank).reverse
  refine ⟨cs.takeWhile isBlank, (rest.takeWhile isBlank).reverse, hblank cs, ?_, ?_⟩
  · exact fun c hc => hblank rest c (List.mem_reverse.mp hc)
  · have hrest : trimChars cs ++ (rest.takeWhile isBlank).reverse = cs.dropWhile isBlank := by
      rw [trimChars, ← List.reverse_append, List.takeWhile_append_dropWhile, List.reverse_reverse]
    rw [List.append_assoc, hrest, List.takeWhile_append_dropWhile]

theorem trim_eq_of_pads {core s : String} (h : Pads core s) : trim s = trim core := by
  obtain ⟨front, back, hfront, hback, hs⟩ := h
  rw [trim, trim, hs, trimChars_append hfront hback]

theorem pads_trim (s : String) : Pads (trim s) s := by
  rw [Pads, toList_trim]
  exact exists_padding s.toList

@[simp] theorem trim_trim (s : String) : trim (trim s) = trim s :=
  (trim_eq_of_pads (pads_trim s)).symm

/-- **Texts are padded alike exactly if they are trimmed alike.** -/
theorem sameText_iff {s t : String} : SameText s t ↔ trim s = trim t := by
  constructor
  · rintro ⟨core, hs, ht⟩
    rw [trim_eq_of_pads hs, trim_eq_of_pads ht]
  · intro h
    exact ⟨trim s, pads_trim s, h ▸ pads_trim t⟩

/-! ## The case of letters -/

/-- No letter is blank, nor any character between the first capital and the last small letter. -/
theorem isBlank_eq_false_of_letter {c : Char} (hlow : 65 ≤ c.toNat) (hhigh : c.toNat ≤ 122) :
    isBlank c = false := by
  simp only [isBlank, Bool.or_eq_false_iff, Bool.and_eq_false_iff, decide_eq_false_iff_not,
    beq_eq_false_iff_ne]
  omega

/-- The capital of a small letter stands thirty-two places before it. -/
theorem toNat_toUpper {c : Char} (h : 'a'.val ≤ c.val ∧ c.val ≤ 'z'.val) :
    c.toUpper.toNat = c.toNat - 32 := by
  have hlow : 97 ≤ c.val.toNat := h.1
  have hhigh : c.val.toNat ≤ 122 := h.2
  have hupper : c.toUpper.toNat = (c.val + ('A'.val - 'a'.val)).toNat := by
    unfold Char.toUpper
    rw [dif_pos h]
    rfl
  have hsum : (c.val + ('A'.val - 'a'.val)).toNat = (c.val.toNat + 4294967264) % 4294967296 :=
    UInt32.toNat_add _ _
  rw [hupper, Char.toNat]
  omega

theorem isBlank_toUpper (c : Char) : isBlank c.toUpper = isBlank c := by
  by_cases hsmall : 'a'.val ≤ c.val ∧ c.val ≤ 'z'.val
  · have hlow : 97 ≤ c.toNat := hsmall.1
    have hhigh : c.toNat ≤ 122 := hsmall.2
    have hupper := toNat_toUpper hsmall
    rw [isBlank_eq_false_of_letter (by omega) hhigh,
      isBlank_eq_false_of_letter (by omega) (by omega)]
  · have hsame : c.toUpper = c := dif_neg hsmall
    rw [hsame]

theorem trimChars_map_toUpper (cs : List Char) :
    trimChars (cs.map Char.toUpper) = (trimChars cs).map Char.toUpper := by
  have hblank : isBlank ∘ Char.toUpper = isBlank := funext isBlank_toUpper
  simp only [trimChars, List.dropWhile_map, ← List.map_reverse, hblank]

/-- To trim a text and to write it in capitals may be done in either order. -/
theorem trim_toUpper (s : String) : trim s.toUpper = (trim s).toUpper := by
  rw [String.ext_iff, toList_trim, String.toUpper, String.toUpper, String.toList_map,
    String.toList_map, trimChars_map_toUpper, toList_trim]

theorem sameCode_iff {s t : String} : SameCode s t ↔ (trim s).toUpper = (trim t).toUpper := by
  constructor
  · rintro ⟨core, core', hs, ht, hcase⟩
    rw [trim_eq_of_pads hs, trim_eq_of_pads ht, ← trim_toUpper, ← trim_toUpper, hcase]
  · intro h
    exact ⟨trim s, trim t, pads_trim s, pads_trim t, h⟩

theorem toUpper_eq_empty_iff {s : String} : s.toUpper = "" ↔ s = "" := by
  simp only [String.ext_iff, String.toUpper, String.toList_map, String.toList_empty,
    List.map_eq_nil_iff]

/-! ## Texts that need not be there -/

/-- An optional text without blanks around it; nothing counts as an empty text. -/
def trimmed (s : Option String) : String := trim (s.getD "")

theorem trim_trimmed (s : Option String) : trim (trimmed s) = trimmed s := trim_trim _

theorem present_of_blank {s : Option String} (h : trimmed s = "") : present s = none := by
  cases s with
  | none => rfl
  | some s => exact if_pos h

theorem present_of_not_blank {s : Option String} (h : trimmed s ≠ "") :
    present s = some (trimmed s) := by
  cases s with
  | none => exact absurd rfl h
  | some s => exact if_neg h

theorem getD_present (s : Option String) : (present s).getD "" = trimmed s := by
  by_cases h : trimmed s = ""
  · rw [present_of_blank h, h, Option.getD_none]
  · rw [present_of_not_blank h, Option.getD_some]

theorem present_present (s : Option String) : present (present s) = present s := by
  by_cases h : trimmed s = ""
  · rw [present_of_blank h]
    rfl
  · have htrimmed : trimmed (some (trimmed s)) = trimmed s := trim_trimmed s
    rw [present_of_not_blank h, present_of_not_blank (htrimmed.symm ▸ h), htrimmed]

end QuoteBoard.Text
