/-
# What the counters count

A family of counters keeps one number for each label. If one is counted under a label for
each member of a list, the family holds for each label how often the list names it, and
nothing for a label that the list does not name. No two shapes of feed messages share a
label, and the messages that were dropped have one of their own.
-/

import QuoteBoard.Health.Metrics
import QuoteBoard.Proofs.Price.Cache
import Mathlib.Data.List.Count
import Mathlib.Logic.Function.Basic

namespace QuoteBoard.Health

/-- The labels that were counted stand for their numbers of occurrences, and no other label is
there. -/
def Tallies (counts : TextMap Nat) (labels : List String) : Prop :=
  ∀ label, counts.get? label = if label ∈ labels then some (labels.count label) else none

namespace Tallies

theorem nil : Tallies TextMap.empty [] := fun _ => rfl

/-- To count one more adds it to the labels that were counted. -/
theorem countOne {counts : TextMap Nat} {labels : List String} (h : Tallies counts labels)
    (label : String) : Tallies (Metrics.countOne counts label) (label :: labels) := by
  intro other
  rw [Metrics.countOne, TextMap.get?_insert]
  by_cases hother : other = label
  · subst hother
    have hcount : (counts.get? other).getD 0 = labels.count other := by
      rw [h other]
      split
      · rfl
      · next habsent => exact (List.count_eq_zero.mpr habsent).symm
    rw [if_pos rfl, if_pos List.mem_cons_self, hcount, List.count_cons_self]
  · rw [if_neg hother, h other, List.count_cons_of_ne (Ne.symm hother)]
    simp only [List.mem_cons, hother, false_or]

end Tallies

namespace Metrics

/-- No two shapes share a label, nor does a shape share that of the messages that were dropped. -/
theorem feedLabel_injective : Function.Injective feedLabel := by
  rintro (_ | a) (_ | b) h
  · rfl
  · cases b <;> exact absurd h (by decide)
  · cases a <;> exact absurd h (by decide)
  · cases a <;> cases b <;> first | rfl | exact absurd h (by decide)

theorem outcomeLabel_injective : Function.Injective outcomeLabel := by
  intro a b
  cases a <;> cases b <;> decide

end Metrics

end QuoteBoard.Health
