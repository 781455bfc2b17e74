/-
# First occurrences

Of the members of a list that bear the same name only the first is kept; members
without a name are all kept, and the order stays.
-/

namespace QuoteBoard

universe u

/-- The first member of each name and every nameless one, names already seen left out. -/
def firstOccurrencesFrom {α : Type u} (name? : α → Option String) (seen : List String) :
    List α → List α
  | [] => []
  | x :: rest =>
    match name? x with
    | none => x :: firstOccurrencesFrom name? seen rest
    | some n =>
      if seen.contains n then firstOccurrencesFrom name? seen rest
      else x :: firstOccurrencesFrom name? (n :: seen) rest

/-- The first member of each name and every nameless one. -/
def firstOccurrences {α : Type u} (name? : α → Option String) (xs : List α) : List α :=
  firstOccurrencesFrom name? [] xs

/-- The texts of a list without repetition, in the order in which they first occur. -/
def distinct (texts : List String) : List String := firstOccurrences some texts

end QuoteBoard
