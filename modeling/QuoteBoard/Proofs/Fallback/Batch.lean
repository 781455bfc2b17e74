/-
# How keys are cut into batches

A list is cut into pieces that make it up in order, none of them empty or too long and
all of them full but the last. The batches of a list of keys are cut in this way from its
distinct keys, at a size between one and ninety.
-/

import QuoteBoard.Fallback.Batch
import QuoteBoard.Proofs.Text.Distinct

namespace QuoteBoard.Fallback

universe u

variable {α : Type u} {size : Nat}

/-- A list cut into pieces of `size` members; only the last piece may be shorter. -/
structure CutInto (size : Nat) (xs : List α) (cut : List (List α)) : Prop where
  flatten : cut.flatten = xs
  nonempty : ∀ piece ∈ cut, piece ≠ []
  length_le : ∀ piece ∈ cut, piece.length ≤ size
  full : ∀ piece ∈ cut.dropLast, piece.length = size

namespace CutInto

theorem nil : CutInto size ([] : List α) [] :=
  ⟨rfl, by simp, by simp, by simp⟩

variable {xs : List α} {cut : List (List α)}

/-- Where nothing is cut there are no pieces, and only there. -/
theorem eq_nil_iff (h : CutInto size xs cut) : cut = [] ↔ xs = [] := by
  constructor
  · rintro rfl
    exact h.flatten.symm
  · rintro rfl
    apply List.eq_nil_iff_forall_not_mem.mpr
    intro piece hpiece
    exact h.nonempty piece hpiece (List.flatten_eq_nil_iff.mp h.flatten piece hpiece)

/-- A first piece may be put before the pieces of what follows, and is full if anything follows. -/
theorem cons {piece : List α} (h : CutInto size xs cut) (hpiece : piece ≠ [])
    (hlength : piece.length ≤ size) (hfull : xs ≠ [] → piece.length = size) :
    CutInto size (piece ++ xs) (piece :: cut) where
  flatten := by rw [List.flatten_cons, h.flatten]
  nonempty := List.forall_mem_cons.mpr ⟨hpiece, h.nonempty⟩
  length_le := List.forall_mem_cons.mpr ⟨hlength, h.length_le⟩
  full := by
    by_cases hcut : cut = []
    · simp [hcut]
    · rw [List.dropLast_cons_of_ne_nil hcut, List.forall_mem_cons]
      exact ⟨hfull fun hxs => hcut (h.eq_nil_iff.mpr hxs), h.full⟩

end CutInto

/-- **Full pieces but for the last.** -/
theorem cutInto_pieces (hsize : size ≠ 0) (xs : List α) : CutInto size xs (pieces size xs) := by
  induction xs using pieces.induct size with
  | case1 xs hend =>
      have hxs : xs = [] := hend.resolve_left hsize
      rw [pieces, if_pos hend, hxs]
      exact .nil
  | case2 xs hmore ih =>
      have hxs : xs ≠ [] := fun h => hmore (Or.inr h)
      have hpiece : xs.take size ≠ [] := by simp [hsize, hxs]
      have hfull : xs.drop size ≠ [] → (xs.take size).length = size := by
        intro hrest
        have hlt : size < xs.length := by simpa [List.drop_eq_nil_iff] using hrest
        rw [List.length_take, Nat.min_eq_left (Nat.le_of_lt hlt)]
      have hcons := ih.cons hpiece (List.length_take_le size xs) hfull
      rw [List.take_append_drop] at hcons
      rwa [pieces, if_neg hmore]

/-- The size in force is the one asked for, or the nearest of the sizes that are possible. -/
theorem effectiveBatchSize_eq (asked : Nat) :
    effectiveBatchSize asked = if asked < 1 then 1 else if 90 < asked then 90 else asked := by
  unfold effectiveBatchSize maxBatchSize
  split_ifs <;> omega

theorem effectiveBatchSize_ne_zero (asked : Nat) : effectiveBatchSize asked ≠ 0 := by
  unfold effectiveBatchSize
  omega

variable (asked : Nat) (keys : List Key)

/-- The batches of a list of keys are cut from its distinct keys. -/
theorem cutInto_batches :
    CutInto (effectiveBatchSize asked) (distinct keys) (batches asked keys) :=
  cutInto_pieces (effectiveBatchSize_ne_zero asked) (distinct keys)

theorem firstSeen_flatten_batches : FirstSeen keys (batches asked keys).flatten := by
  rw [(cutInto_batches asked keys).flatten]
  exact firstSeen_distinct keys

end QuoteBoard.Fallback
