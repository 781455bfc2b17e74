/-
# How operations address rows

An operation addresses a row when it binds the row, shows it anew from the cache, or
shows a tick in it. `Desk.addresses` reads off a log how a row was addressed, the latest
address first. What does not address a row leaves it alone or makes it leave, and
`Desk.Leads` says, for each way to address a row, what an operation makes of it. Facts
about rows after any log follow by `Desk.row_induction`, with one case for each way.
-/

import QuoteBoard.Proofs.Board.Desk

namespace QuoteBoard

/-- How an operation addresses a row. -/
inductive Address where
  /-- The row is bound, over the text that its cell holds already. -/
  | bound (inherited : Option String)
  /-- The row is shown anew from the cache. -/
  | renewed
  /-- The row shows a tick. -/
  | ticked (price : Option Binary64)
  deriving DecidableEq

namespace Desk

/-- How an operation addresses the row of a name, if it does. -/
def address? (d : Desk) (id : RowId) : Operation → Option Address
  | .bind x => if x.id = id then some (.bound (d.board.shownIn id)) else none
  | .replaceScope _ bindings =>
    if id ∈ bindings.map Binding.id then some (.bound (d.board.inherited d.cache id bindings))
    else none
  | .merge batch =>
    if (d.board.row? id).any fun r => r.references (batch.map Prod.fst) then some .renewed
    else none
  | .attach row _ _ => if row = id ∧ (d.board.row? id).isSome then some .renewed else none
  | .tick code price =>
    if (d.board.row? id).any fun r => r.scrip = some code then some (.ticked price) else none

/-- How the operations of a log addressed the row of a name, the latest address first. -/
def addresses (id : RowId) : List Operation → List Address
  | [] => []
  | op :: earlier => ((after earlier).address? id op).toList ++ addresses id earlier

/-- A row leaves when its scope is replaced by rows without one of its name. -/
def Leaves (id : RowId) (op : Operation) : Prop :=
  ∃ scope bindings, op = .replaceScope scope bindings ∧
    Text.startsWith scope id = true ∧ id ∉ bindings.map Binding.id

variable {d : Desk} {id : RowId} {op : Operation}

/-- **What does not address a row leaves it alone**, in all its fields, unless it makes it leave. -/
theorem row?_perform_of_unaddressed (h : d.address? id op = none) :
    (d.perform op).desk.board.row? id = d.board.row? id ∨
      (Leaves id op ∧ (d.perform op).desk.board.row? id = none) := by
  cases op with
  | bind x =>
      left
      have hne : id ≠ x.id := by
        rintro rfl
        simp [address?] at h
      exact (Board.row?_bind d.board d.cache x id).trans (if_neg hne)
  | replaceScope scope bindings =>
      have hmem : id ∉ bindings.map Binding.id := by
        intro hmem
        simp only [address?, if_pos hmem, reduceCtorEq] at h
      have hrow := Board.row?_replaceScope d.board d.cache scope bindings id
      rw [lastBinding?_eq_none_iff.mpr hmem] at hrow
      by_cases hscope : Text.startsWith scope id = true
      · exact Or.inr ⟨⟨scope, bindings, rfl, hscope, hmem⟩, hrow.trans (if_pos hscope)⟩
      · exact Or.inl (hrow.trans (if_neg hscope))
  | merge batch =>
      left
      rw [row?_perform_merge]
      cases hrow : d.board.row? id with
      | none => rfl
      | some r =>
          have hreferences : ¬ r.references (batch.map Prod.fst) = true := by
            intro hreferences
            simp only [address?, hrow, Option.any_some, if_pos hreferences, reduceCtorEq] at h
          simp only [Option.map_some, if_neg hreferences]
  | attach row scrip key =>
      left
      refine (Board.row?_attach d.board d.cache row scrip key id).trans ?_
      by_cases hid : id = row
      · subst hid
        rw [if_pos rfl]
        cases hrow : d.board.row? id with
        | none => rfl
        | some r => simp [address?, hrow] at h
      · rw [if_neg hid]
  | tick code price =>
      left
      refine (Board.row?_tick d.board code price id).trans ?_
      cases hrow : d.board.row? id with
      | none => rfl
      | some r =>
          have hscrip : ¬ r.scrip = some code := by
            intro hscrip
            simp [address?, hrow, hscrip] at h
          simp only [Option.map_some, if_neg hscrip]

/-- What an operation that addresses a bound row in a certain way, or not at all, makes of it. -/
inductive Leads (before after : Desk) (id : RowId) (r : Row) : Option Address → Prop
  | /-- The row and the price of its candidates are what they were. -/
    kept (hrow : before.board.row? id = some r)
      (hprice : after.cache.first? r.candidates = before.cache.first? r.candidates) :
      Leads before after id r none
  | /-- The row is new, over the text that its cell held already. -/
    bound (binding : Binding) (inherited : Option String)
      (hrow : r = Row.bound after.cache binding inherited) :
      Leads before after id r (some (.bound inherited))
  | /-- A row with all of the old candidates is shown anew over the old text. -/
    renewed (old changed : Row) (hold : before.board.row? id = some old)
      (hshown : changed.shown = old.shown)
      (hcandidates : ∀ k ∈ old.candidates, k ∈ changed.candidates)
      (hrow : r = { changed with shown := some (changed.due after.cache) }) :
      Leads before after id r (some .renewed)
  | /-- The row shows a tick, and the price of its candidates is what it was. -/
    ticked (old : Row) (price : Option Binary64) (hold : before.board.row? id = some old)
      (hcache : after.cache = before.cache)
      (hrow : r = { old with shown := some (Board.tickText price) }) :
      Leads before after id r (some (.ticked price))

/-- Candidates that a batch does not name keep the price that they have as a list. -/
theorem first?_perform_of_unaddressed (h : d.address? id op = none) {r : Row}
    (hrow : d.board.row? id = some r) :
    (d.perform op).desk.cache.first? r.candidates = d.cache.first? r.candidates := by
  cases op with
  | merge batch =>
      apply Cache.first?_merge_of_disjoint
      intro k hk hbatch
      have hreferences : r.references (batch.map Prod.fst) = true :=
        (Row.references_iff r).mpr ⟨k, hk, hbatch⟩
      simp only [address?, hrow, Option.any_some, if_pos hreferences, reduceCtorEq] at h
  | bind | replaceScope | attach | tick => rfl

theorem leads_of_unaddressed (h : d.address? id op = none) {r : Row}
    (hrow : (d.perform op).desk.board.row? id = some r) :
    Leads d (d.perform op).desk id r (d.address? id op) := by
  rw [h]
  rcases row?_perform_of_unaddressed h with hkept | ⟨-, hgone⟩
  · have hold := hkept.symm.trans hrow
    exact .kept hold (first?_perform_of_unaddressed h hold)
  · rw [hgone] at hrow
    cases hrow

variable (d) {r : Row}

theorem leads_bind {x : Binding} (hrow : (d.perform (.bind x)).desk.board.row? id = some r) :
    Leads d (d.perform (.bind x)).desk id r (d.address? id (.bind x)) := by
  by_cases hid : x.id = id
  · subst hid
    have hbind := (Board.row?_bind d.board d.cache x x.id).trans (if_pos rfl)
    rw [address?, if_pos rfl]
    exact .bound x _ (Option.some.inj (hrow.symm.trans hbind))
  · apply leads_of_unaddressed _ hrow
    rw [address?, if_neg hid]

theorem leads_replaceScope {scope : String} {bindings : List Binding}
    (hrow : (d.perform (.replaceScope scope bindings)).desk.board.row? id = some r) :
    Leads d (d.perform (.replaceScope scope bindings)).desk id r
      (d.address? id (.replaceScope scope bindings)) := by
  by_cases hmem : id ∈ bindings.map Binding.id
  · obtain ⟨x, hx⟩ := Option.isSome_iff_exists.mp (lastBinding?_isSome_iff.mpr hmem)
    have hbind := Board.row?_replaceScope d.board d.cache scope bindings id
    rw [hx] at hbind
    rw [address?, if_pos hmem]
    exact .bound x _ (Option.some.inj (hrow.symm.trans hbind))
  · apply leads_of_unaddressed _ hrow
    rw [address?, if_neg hmem]

theorem leads_merge {batch : List (Key × Binary64)}
    (hrow : (d.perform (.merge batch)).desk.board.row? id = some r) :
    Leads d (d.perform (.merge batch)).desk id r (d.address? id (.merge batch)) := by
  by_cases hany : ((d.board.row? id).any fun r => r.references (batch.map Prod.fst)) = true
  · obtain ⟨old, hold, hreferences⟩ := (Option.any_eq_true _ _).mp hany
    rw [row?_perform_merge, hold, Option.map_some, if_pos hreferences] at hrow
    rw [address?, if_pos hany]
    exact .renewed old old hold rfl (fun k hk => hk) (Option.some.inj hrow).symm
  · apply leads_of_unaddressed _ hrow
    rw [address?, if_neg hany]

theorem leads_attach {row : RowId} {scrip : Option String} {key : Key}
    (hrow : (d.perform (.attach row scrip key)).desk.board.row? id = some r) :
    Leads d (d.perform (.attach row scrip key)).desk id r
      (d.address? id (.attach row scrip key)) := by
  by_cases hbound : row = id ∧ (d.board.row? id).isSome = true
  · obtain ⟨rfl, hsome⟩ := hbound
    obtain ⟨old, hold⟩ := Option.isSome_iff_exists.mp hsome
    have hattach := (Board.row?_attach d.board d.cache row scrip key row).trans (if_pos rfl)
    rw [hold, Option.map_some] at hattach
    have hcandidates : ∀ k ∈ old.candidates, k ∈ (Board.resolved old scrip key).candidates := by
      intro k hk
      simp only [Board.resolved]
      split
      · exact hk
      · exact List.mem_append_left _ hk
    rw [address?, if_pos ⟨rfl, hsome⟩]
    exact .renewed old (Board.resolved old scrip key) hold rfl hcandidates
      (Option.some.inj (hrow.symm.trans hattach))
  · apply leads_of_unaddressed _ hrow
    rw [address?, if_neg hbound]

theorem leads_tick {code : String} {price : Option Binary64}
    (hrow : (d.perform (.tick code price)).desk.board.row? id = some r) :
    Leads d (d.perform (.tick code price)).desk id r (d.address? id (.tick code price)) := by
  by_cases hany : ((d.board.row? id).any fun r => r.scrip = some code) = true
  · obtain ⟨old, hold, hscrip⟩ := (Option.any_eq_true _ _).mp hany
    have htick := Board.row?_tick d.board code price id
    rw [hold, Option.map_some, if_pos (of_decide_eq_true hscrip)] at htick
    rw [address?, if_pos hany]
    exact .ticked old price hold rfl (Option.some.inj (hrow.symm.trans htick))
  · apply leads_of_unaddressed _ hrow
    rw [address?, if_neg hany]

/-- **All that an operation can do to a bound row.** -/
theorem leads_perform (op : Operation) (hrow : (d.perform op).desk.board.row? id = some r) :
    Leads d (d.perform op).desk id r (d.address? id op) := by
  cases op with
  | bind x => exact leads_bind d hrow
  | replaceScope scope bindings => exact leads_replaceScope d hrow
  | merge batch => exact leads_merge d hrow
  | attach row scrip key => exact leads_attach d hrow
  | tick code price => exact leads_tick d hrow

/-- **What holds of a row through its whole history.** A fact about the prices, the addresses of a
row and the row itself holds after every log if it holds of a row that has just been bound and
stays true when the row is left alone, shown anew, or ticked. -/
theorem row_induction {motive : Cache → List Address → Row → Prop}
    (kept : ∀ before after addressed (r : Row),
      after.first? r.candidates = before.first? r.candidates →
      motive before addressed r → motive after addressed r)
    (bound : ∀ cache addressed binding inherited,
      motive cache (.bound inherited :: addressed) (Row.bound cache binding inherited))
    (renewed : ∀ before after addressed (old changed : Row),
      (∀ keys, after.first? keys = none → before.first? keys = none) →
      changed.shown = old.shown → (∀ k ∈ old.candidates, k ∈ changed.candidates) →
      motive before addressed old →
      motive after (.renewed :: addressed) { changed with shown := some (changed.due after) })
    (ticked : ∀ cache addressed (old : Row) price, motive cache addressed old →
      motive cache (.ticked price :: addressed)
        { old with shown := some (Board.tickText price) })
    {log : List Operation} {r : Row} (hrow : (after log).board.row? id = some r) :
    motive (after log).cache (addresses id log) r := by
  induction log generalizing r with
  | nil => cases hrow
  | cons op earlier ih =>
      have hleads := leads_perform (after earlier) op hrow
      rw [addresses]
      cases haddress : (after earlier).address? id op with
      | none =>
          rw [haddress] at hleads
          obtain ⟨hold, hprice⟩ := hleads
          exact kept _ _ _ r hprice (ih hold)
      | some a =>
          rw [haddress] at hleads
          cases hleads with
          | bound x inherited hbound =>
              rw [hbound]
              exact bound _ _ x inherited
          | renewed old changed hold hshown hcandidates hchanged =>
              rw [hchanged]
              apply renewed _ _ _ old changed _ hshown hcandidates (ih hold)
              exact fun keys hkeys => first?_eq_none_of_perform (after earlier) hkeys
          | ticked old price hold hcache hticked =>
              rw [hticked, after_cons, hcache]
              exact ticked _ _ old price (ih hold)

end Desk

end QuoteBoard
