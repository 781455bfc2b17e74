/-
# Lists that are read in part

Much of what happens is read off lists of which only some members are of account: the commands
in a past, the answers among effects, the clients that wait. What such a reading makes of a list
that grows at one end, of one whose members are told apart by it, and of one in which a place is
written over.
-/

import Mathlib.Data.List.Nodup

namespace QuoteBoard

variable {α β : Type}

theorem filterMap_singleton (f : α → Option β) (x : α) :
    [x].filterMap f = (f x).toList := by
  cases hx : f x <;> simp [hx]

theorem reverse_filterMap_cons (f : α → Option β) (x : α) (l : List α) :
    ((x :: l).filterMap f).reverse = (l.filterMap f).reverse ++ (f x).toList := by
  rw [← List.singleton_append, List.filterMap_append, filterMap_singleton, List.reverse_append]
  cases f x <;> rfl

/-- Where the images under `f` are distinct, an image says where in the list it is from. -/
theorem suffix_unique {f : α → Option β} {l : List α} (hnodup : (l.filterMap f).Nodup)
    {x y : α} {xs ys : List α} {b : β} (hx : x :: xs <:+ l) (hfx : f x = some b)
    (hy : y :: ys <:+ l) (hfy : f y = some b) : x :: xs = y :: ys := by
  -- the later of two different places would hold `b`, and so would what comes after it
  have hapart : ∀ {x y : α} {xs ys : List α}, f x = some b → f y = some b → y :: ys <:+ l →
      ¬ x :: xs <:+ ys := by
    intro x y xs ys hfx hfy hy hinside
    have hnodup := hnodup.sublist (hy.sublist.filterMap f)
    rw [List.filterMap_cons_some hfy, List.nodup_cons] at hnodup
    exact hnodup.1 (List.mem_filterMap.mpr ⟨x, hinside.subset List.mem_cons_self, hfx⟩)
  rcases List.suffix_or_suffix_of_suffix hx hy with hle | hle
  · rcases List.suffix_cons_iff.mp hle with heq | hinside
    · exact heq
    · exact absurd hinside (hapart hfx hfy hy)
  · rcases List.suffix_cons_iff.mp hle with heq | hinside
    · exact heq.symm
    · exact absurd hinside (hapart hfy hfx hx)

/-- A partial function that agrees with another one where it is defined gives some of its values. -/
theorem filterMap_sublist_map {f : α → Option β} {g : α → β} {xs : List α}
    (hfg : ∀ x ∈ xs, ∀ y, f x = some y → y = g x) : (xs.filterMap f).Sublist (xs.map g) := by
  induction xs with
  | nil => exact List.Sublist.refl _
  | cons x rest ih =>
      have hrest := ih fun z hz => hfg z (List.mem_cons_of_mem _ hz)
      cases hx : f x with
      | none =>
          rw [List.filterMap_cons_none hx]
          exact hrest.cons _
      | some y =>
          rw [List.filterMap_cons_some hx, hfg x List.mem_cons_self y hx]
          exact hrest.cons_cons _

/-- The last member that passes a test is one behind which none passes it. -/
theorem find?_reverse_eq_some_iff {p : α → Bool} {xs : List α} {x : α} :
    xs.reverse.find? p = some x ↔
      p x = true ∧ ∃ front back, xs = front ++ x :: back ∧ ∀ y ∈ back, p y = false := by
  rw [List.find?_eq_some_iff_append]
  refine and_congr_right fun _ => ?_
  constructor
  · rintro ⟨back, front, hsplit, hback⟩
    have hxs := congrArg List.reverse hsplit
    rw [List.reverse_reverse, List.reverse_append, List.reverse_cons, List.append_assoc,
      List.singleton_append] at hxs
    refine ⟨front.reverse, back.reverse, hxs, fun y hy => ?_⟩
    simpa using hback y (List.mem_reverse.mp hy)
  · rintro ⟨front, back, rfl, hback⟩
    refine ⟨back.reverse, front.reverse, ?_, fun y hy => ?_⟩
    · rw [List.reverse_append, List.reverse_cons, List.append_assoc, List.singleton_append]
    · simpa using hback y (List.mem_reverse.mp hy)

/-- Where names differ, the last member of a name is its only one. -/
theorem find?_reverse_of_nodup {name : α → String} {xs : List α} {x : α}
    (hnames : (xs.map name).Nodup) (hx : x ∈ xs) :
    (xs.reverse.find? fun y => name y = name x) = some x := by
  obtain ⟨y, hy⟩ : ∃ y, (xs.reverse.find? fun y => name y = name x) = some y := by
    rw [← Option.isSome_iff_exists, List.find?_isSome]
    exact ⟨x, List.mem_reverse.mpr hx, by simp⟩
  have hsame : name y = name x := by simpa using List.find?_some hy
  have hmem : y ∈ xs := List.mem_reverse.mp (List.mem_of_find?_eq_some hy)
  rw [hy, List.inj_on_of_nodup_map hnames hmem hx hsame]

/-- What a separator parts can be put together in one way only, if one of the first parts lacks the
separator and the second parts are of different length. -/
theorem append_cons_ne {c : α} {xs ys zs ws : List α} (hc : c ∉ xs)
    (hlength : zs.length < ws.length) : xs ++ c :: zs ≠ ys ++ c :: ws := by
  intro heq
  rcases List.append_eq_append_iff.mp heq with ⟨more, -, hrest⟩ | ⟨more, hxs, hrest⟩
  · have := congrArg List.length hrest
    simp only [List.length_append, List.length_cons] at this
    omega
  · cases more with
    | nil =>
        obtain rfl := (List.cons.inj hrest).2
        exact Nat.lt_irrefl _ hlength
    | cons d more =>
        obtain rfl := (List.cons.inj hrest).1
        exact hc (hxs ▸ List.mem_append_right ys List.mem_cons_self)

/-- A place in a list parts it, and what is written there leaves both parts as they are. -/
theorem exists_append_of_getElem? {xs : List α} {i : Nat} {x : α} (h : xs[i]? = some x) :
    ∃ front back, xs = front ++ x :: back ∧ (∀ y, xs.set i y = front ++ y :: back) ∧
      ∀ f, xs.modify i f = front ++ f x :: back := by
  obtain ⟨hi, rfl⟩ := List.getElem?_eq_some_iff.mp h
  refine ⟨xs.take i, xs.drop (i + 1), ?_, fun y => List.set_eq_take_cons_drop y hi, fun f => ?_⟩
  · rw [List.getElem_cons_drop, List.take_append_drop]
  · exact List.modify_eq_take_cons_drop hi

end QuoteBoard
