/-
# Names in the order in which they occur

To keep the first member of each name is to keep each name once. The names that are left
are exactly those of the list, in the order of their first places there (`FirstSeen`), and
which members are left is told by their places (`firstOccurrences_eq_filter`). A list that
holds no name twice is left as it is.
-/

import QuoteBoard.Text.Distinct
import Mathlib.Data.List.Nodup

namespace QuoteBoard

universe u

/-- The texts of a list without repetition, in the order of their first places in it. -/
structure FirstSeen (texts listed : List String) : Prop where
  mem_iff : ∀ t, t ∈ listed ↔ t ∈ texts
  ordered : listed.Pairwise fun a b => texts.idxOf a < texts.idxOf b

/-- Texts in the order of their first places are different. -/
theorem nodup_of_ordered {texts listed : List String}
    (h : listed.Pairwise fun a b => texts.idxOf a < texts.idxOf b) : listed.Nodup := by
  apply h.imp
  rintro t _ hlt rfl
  exact Nat.lt_irrefl _ hlt

namespace FirstSeen

variable {texts listed : List String}

theorem nodup (h : FirstSeen texts listed) : listed.Nodup := nodup_of_ordered h.ordered

end FirstSeen

/-- A member at its place in a list is new: it has no name, or no member before it bears that
name. -/
def IsNew {α : Type u} (name? : α → Option String) (xs : List α) (p : α × Nat) : Prop :=
  name? p.1 = none ∨ name? p.1 ∉ (xs.take p.2).map name?

instance {α : Type u} (name? : α → Option String) (xs : List α) :
    DecidablePred (IsNew name? xs) := fun p =>
  inferInstanceAs (Decidable (name? p.1 = none ∨ name? p.1 ∉ (xs.take p.2).map name?))

/-! ## One member -/

section Step

variable {α : Type u} (name? : α → Option String) {seen : List String}

/-- A member without a name or with a new one is kept, and its name has been seen from then on. -/
theorem firstOccurrencesFrom_of_new {x : α}
    (hnew : ∀ n, name? x = some n → n ∉ seen) (rest : List α) :
    firstOccurrencesFrom name? seen (x :: rest) =
      x :: firstOccurrencesFrom name? ((name? x).toList ++ seen) rest := by
  rw [firstOccurrencesFrom]
  cases hx : name? x with
  | none => rfl
  | some n =>
      have hn : ¬ seen.contains n = true := by simpa using hnew n hx
      exact if_neg hn

/-- A member whose name has been seen is left out. -/
theorem firstOccurrencesFrom_of_seen {x : α} {n : String} (hx : name? x = some n)
    (hn : n ∈ seen) (rest : List α) :
    firstOccurrencesFrom name? seen (x :: rest) = firstOccurrencesFrom name? seen rest := by
  simp only [firstOccurrencesFrom, hx, List.contains_eq_mem, hn, decide_true, if_true]

/-- A text that has been seen is left out. -/
theorem firstOccurrencesFrom_of_mem {x : String} (hx : x ∈ seen) (rest : List String) :
    firstOccurrencesFrom some seen (x :: rest) = firstOccurrencesFrom some seen rest :=
  firstOccurrencesFrom_of_seen some rfl hx rest

/-- A text that has not been seen is kept. -/
theorem firstOccurrencesFrom_of_not_mem {x : String} (hx : x ∉ seen) (rest : List String) :
    firstOccurrencesFrom some seen (x :: rest) =
      x :: firstOccurrencesFrom some (x :: seen) rest :=
  firstOccurrencesFrom_of_new some (by simpa using hx) rest

end Step

/-! ## Texts -/

variable {seen texts : List String} {t : String}

/-- Names already seen are left out, and no others. -/
theorem mem_firstOccurrencesFrom :
    t ∈ firstOccurrencesFrom some seen texts ↔ t ∈ texts ∧ t ∉ seen := by
  induction texts generalizing seen with
  | nil => simp [firstOccurrencesFrom]
  | cons x rest ih =>
      by_cases hx : x ∈ seen
      · rw [firstOccurrencesFrom_of_mem hx, ih, List.mem_cons]
        constructor
        · exact fun ⟨hrest, hseen⟩ => ⟨Or.inr hrest, hseen⟩
        · rintro ⟨rfl | hrest, hseen⟩
          · exact absurd hx hseen
          · exact ⟨hrest, hseen⟩
      · rw [firstOccurrencesFrom_of_not_mem hx, List.mem_cons, ih, List.mem_cons, List.mem_cons]
        by_cases ht : t = x
        · subst ht
          simp [hx]
        · simp [ht]

theorem ordered_firstOccurrencesFrom :
    (firstOccurrencesFrom some seen texts).Pairwise
      fun a b => texts.idxOf a < texts.idxOf b := by
  induction texts generalizing seen with
  | nil => exact List.Pairwise.nil
  | cons x rest ih =>
      -- behind the head every place in the list is one more than in its rest
      have hshift : ∀ {a : String}, a ≠ x → (x :: rest).idxOf a = rest.idxOf a + 1 := by
        intro a ha
        rw [List.idxOf_cons, beq_false_of_ne (Ne.symm ha), cond_false]
      have htail : ∀ {later : List String}, x ∈ later →
          (firstOccurrencesFrom some later rest).Pairwise
            fun a b => (x :: rest).idxOf a < (x :: rest).idxOf b := by
        intro later hx
        apply List.Pairwise.imp_of_mem _ ih
        intro a b ha hb hlt
        have hne : ∀ {c : String}, c ∈ firstOccurrencesFrom some later rest → c ≠ x := by
          rintro c hc rfl
          exact (mem_firstOccurrencesFrom.mp hc).2 hx
        rw [hshift (hne ha), hshift (hne hb)]
        exact Nat.succ_lt_succ hlt
      by_cases hx : x ∈ seen
      · rw [firstOccurrencesFrom_of_mem hx]
        exact htail hx
      · rw [firstOccurrencesFrom_of_not_mem hx]
        refine List.pairwise_cons.mpr ⟨fun b hb => ?_, htail List.mem_cons_self⟩
        have hb : b ≠ x := by
          rintro rfl
          exact (mem_firstOccurrencesFrom.mp hb).2 List.mem_cons_self
        rw [hshift hb, List.idxOf_cons_self]
        exact Nat.succ_pos _

/-- What is left out depends on which names have been seen, not on their order. -/
theorem firstOccurrencesFrom_congr {seen' : List String} (h : ∀ t, t ∈ seen ↔ t ∈ seen') :
    firstOccurrencesFrom some seen texts = firstOccurrencesFrom some seen' texts := by
  induction texts generalizing seen seen' with
  | nil => rfl
  | cons x rest ih =>
      have htail : ∀ t, t ∈ x :: seen ↔ t ∈ x :: seen' := by
        intro t
        rw [List.mem_cons, List.mem_cons, h]
      simp only [firstOccurrencesFrom, List.contains_eq_mem, h, ih h, ih htail]

/-- Names that are put behind those already seen make a list without repetition. -/
theorem nodup_append_firstOccurrencesFrom (hseen : seen.Nodup) :
    (seen ++ firstOccurrencesFrom some seen texts).Nodup := by
  refine hseen.append (nodup_of_ordered ordered_firstOccurrencesFrom) ?_
  intro t ht hnew
  exact (mem_firstOccurrencesFrom.mp hnew).2 ht

/-- **Each name once, in the order of first places.** -/
theorem firstSeen_distinct (texts : List String) : FirstSeen texts (distinct texts) where
  mem_iff t := by
    rw [distinct, firstOccurrences, mem_firstOccurrencesFrom]
    simp
  ordered := ordered_firstOccurrencesFrom

/-! ## Members and their names -/

section Members

variable {α : Type u} (name? : α → Option String)

/-- The names of the members that are kept are the names of all members, each once. -/
theorem filterMap_firstOccurrencesFrom (xs : List α) (seen : List String) :
    (firstOccurrencesFrom name? seen xs).filterMap name? =
      firstOccurrencesFrom some seen (xs.filterMap name?) := by
  induction xs generalizing seen with
  | nil => rfl
  | cons x rest ih =>
      cases hx : name? x with
      | none => simp only [firstOccurrencesFrom, hx, List.filterMap_cons_none hx, ih]
      | some n =>
          rw [List.filterMap_cons_some hx]
          by_cases hn : n ∈ seen
          · rw [firstOccurrencesFrom_of_seen name? hx hn, firstOccurrencesFrom_of_mem hn, ih]
          · rw [firstOccurrencesFrom_of_new name? (by simpa [hx] using hn),
              firstOccurrencesFrom_of_not_mem hn, List.filterMap_cons_some hx, ih, hx]
            rfl

/-- The names that are kept are in the order of their first places. -/
theorem firstSeen_firstOccurrences (xs : List α) :
    FirstSeen (xs.filterMap name?) ((firstOccurrences name? xs).filterMap name?) := by
  rw [firstOccurrences, filterMap_firstOccurrencesFrom]
  exact firstSeen_distinct (xs.filterMap name?)

/-- Which members are kept behind others, the names of which have been seen, is told by their
places. -/
theorem firstOccurrencesFrom_eq_filter (before rest : List α) (seen : List String)
    (hseen : ∀ n, n ∈ seen ↔ some n ∈ before.map name?) :
    firstOccurrencesFrom name? seen rest =
      ((rest.zipIdx before.length).filter (IsNew name? (before ++ rest))).map Prod.fst := by
  induction rest generalizing before seen with
  | nil => rfl
  | cons x rest ih =>
      have hmoved : before ++ [x] ++ rest = before ++ x :: rest := (List.append_cons ..).symm
      have hrest (later : List String)
          (hlater : ∀ n, n ∈ later ↔ some n ∈ before.map name? ∨ some n = name? x) :=
        ih (before ++ [x]) later (by simpa [eq_comm] using hlater)
      rw [hmoved, List.length_append, List.length_singleton] at hrest
      have hhead : IsNew name? (before ++ x :: rest) (x, before.length) ↔
          ∀ n, name? x = some n → n ∉ seen := by
        rw [IsNew, List.take_left]
        cases name? x <;> simp [hseen]
      rw [List.zipIdx_cons]
      by_cases hnew : ∀ n, name? x = some n → n ∉ seen
      · have hlater : ∀ n, n ∈ (name? x).toList ++ seen ↔
            some n ∈ before.map name? ∨ some n = name? x := by
          intro n
          rw [List.mem_append, Option.mem_toList, hseen, or_comm, eq_comm]
        rw [firstOccurrencesFrom_of_new name? hnew, hrest _ hlater,
          List.filter_cons_of_pos (by simpa using hhead.mpr hnew), List.map_cons]
      · have hold := mt hhead.mp hnew
        obtain ⟨n, hx, hn⟩ : ∃ n, name? x = some n ∧ n ∈ seen := by simpa using hnew
        have hlater : ∀ m, m ∈ seen ↔ some m ∈ before.map name? ∨ some m = name? x := by
          intro m
          rw [← hseen, hx, Option.some_inj, iff_self_or]
          exact fun hm => hm ▸ hn
        rw [firstOccurrencesFrom_of_seen name? hx hn, hrest seen hlater,
          List.filter_cons_of_neg (by simpa using hold)]

/-- **Kept are the members without a name and the first of each name**, in their order. -/
theorem firstOccurrences_eq_filter (xs : List α) :
    firstOccurrences name? xs = (xs.zipIdx.filter (IsNew name? xs)).map Prod.fst :=
  firstOccurrencesFrom_eq_filter name? [] xs [] (by simp)

theorem firstOccurrences_sublist (xs : List α) : (firstOccurrences name? xs).Sublist xs := by
  have hkept : ((xs.zipIdx.filter (IsNew name? xs)).map Prod.fst).Sublist
      (xs.zipIdx.map Prod.fst) := List.filter_sublist.map _
  rw [firstOccurrences_eq_filter]
  rwa [List.zipIdx_map_fst] at hkept

/-- The member that is kept of a name not seen is the first that bears it. -/
theorem find?_firstOccurrencesFrom (xs : List α) {seen : List String} {n : String}
    (hn : n ∉ seen) :
    (firstOccurrencesFrom name? seen xs).find? (fun x => name? x = some n) =
      xs.find? fun x => name? x = some n := by
  induction xs generalizing seen with
  | nil => rfl
  | cons x rest ih =>
      by_cases hx : name? x = some n
      · have hnew : ∀ m, name? x = some m → m ∉ seen := by simpa [hx] using hn
        rw [firstOccurrencesFrom_of_new name? hnew, List.find?_cons_of_pos (by simpa using hx),
          List.find?_cons_of_pos (by simpa using hx)]
      · rw [List.find?_cons_of_neg (by simpa using hx)]
        by_cases hnew : ∀ m, name? x = some m → m ∉ seen
        · have hlater : n ∉ (name? x).toList ++ seen := by
            rw [List.mem_append, Option.mem_toList, not_or]
            exact ⟨hx, hn⟩
          rw [firstOccurrencesFrom_of_new name? hnew, List.find?_cons_of_neg (by simpa using hx),
            ih hlater]
        · obtain ⟨m, hm, hseen⟩ : ∃ m, name? x = some m ∧ m ∈ seen := by simpa using hnew
          rw [firstOccurrencesFrom_of_seen name? hm hseen, ih hn]

/-- Where no name occurs twice, nothing is left out. -/
theorem firstOccurrencesFrom_of_nodup {xs : List α} {seen : List String}
    (hnames : (xs.filterMap name?).Nodup) (hseen : ∀ n ∈ xs.filterMap name?, n ∉ seen) :
    firstOccurrencesFrom name? seen xs = xs := by
  induction xs generalizing seen with
  | nil => rfl
  | cons x rest ih =>
      have hnew : ∀ n, name? x = some n → n ∉ seen := fun n hx =>
        hseen n (List.mem_filterMap.mpr ⟨x, List.mem_cons_self, hx⟩)
      have hsub : (rest.filterMap name?).Sublist ((x :: rest).filterMap name?) :=
        (List.sublist_cons_self x rest).filterMap name?
      have hlater : ∀ n ∈ rest.filterMap name?, n ∉ (name? x).toList ++ seen := by
        intro n hn
        rw [List.mem_append, Option.mem_toList, not_or]
        refine ⟨fun hx => ?_, hseen n (hsub.subset hn)⟩
        rw [List.filterMap_cons_some hx] at hnames
        exact (List.nodup_cons.mp hnames).1 hn
      rw [firstOccurrencesFrom_of_new name? hnew, ih (hnames.sublist hsub) hlater]

/-- To keep first members a second time changes nothing. -/
theorem firstOccurrences_firstOccurrences (xs : List α) :
    firstOccurrences name? (firstOccurrences name? xs) = firstOccurrences name? xs :=
  firstOccurrencesFrom_of_nodup name? (firstSeen_firstOccurrences name? xs).nodup
    fun _ _ => List.not_mem_nil

end Members

/-- Texts that do not occur twice are all kept. -/
theorem distinct_of_nodup (htexts : texts.Nodup) : distinct texts = texts :=
  firstOccurrencesFrom_of_nodup some (by rwa [List.filterMap_some]) fun _ _ => List.not_mem_nil

end QuoteBoard
