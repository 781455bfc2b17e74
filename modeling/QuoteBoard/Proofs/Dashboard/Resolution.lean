/-
# Which rows a load resolves

A load binds the rows of a table, fills in prices, and passes the rows that are then
listed as unpriced to the broker's list of contracts. While the engine does nothing but
take in prices, a row that the load has bound shows what it would show if it were bound
only now. So a row is listed if its candidates have no price and its cell showed none
before the load. A row whose cell showed a price before is not listed, even if the load
has taken the key of that price from it.
-/

import QuoteBoard.Proofs.Dashboard.Load
import QuoteBoard.Proofs.Engine.Cells

namespace QuoteBoard.Dashboard

open QuoteBoard.Engine (Event Instant Past RequestId stateAfter)

variable {period : Nat} {started : Instant} {past final : Past} {talk : List Exchange}

/-- A row that shows what it was bound to show goes on doing so. -/
theorem row?_of_meanwhile {during after : Past} (h : Meanwhile OnlyMerges during after)
    {id : RowId} {x : Binding} {inherited : Option String}
    (hrow : (stateAfter period started during).board.row? id =
      some (Row.bound (stateAfter period started during).cache x inherited)) :
    (stateAfter period started after).board.row? id =
      some (Row.bound (stateAfter period started after).cache x inherited) := by
  obtain ⟨newer, rfl, hnewer⟩ := h
  induction newer with
  | nil => exact hrow
  | cons p newer ih =>
      obtain ⟨now, e⟩ := p
      have hbefore := ih fun q hq => hnewer q (List.mem_cons_of_mem _ hq)
      have hdesk := Engine.desk_stateAfter_cons period started now e (newer ++ during)
      have hboard := congrArg Desk.board hdesk
      have hcache := congrArg Desk.cache hdesk
      change (stateAfter period started ((now, e) :: (newer ++ during))).board = _ at hboard
      change (stateAfter period started ((now, e) :: (newer ++ during))).cache = _ at hcache
      rw [List.cons_append, hboard, hcache]
      cases hop : e.operation? with
      | none => exact hbefore
      | some op =>
          obtain ⟨batch, rfl⟩ := hnewer (now, e) List.mem_cons_self op hop
          exact Desk.row?_perform_merge_of_bound _ hbefore batch

/-- A row that a load binds shows what its last binding makes of the text in its cell. -/
theorem row?_of_replaceRows (period : Nat) (started : Instant) (bound : Past) (now : Instant)
    (scope : String) {rows : List Binding} {id : RowId} {x : Binding}
    (hx : lastBinding? rows id = some x) :
    (stateAfter period started ((now, .command (.replaceRows scope rows)) :: bound)).board.row? id =
      some (Row.bound
        (stateAfter period started ((now, .command (.replaceRows scope rows)) :: bound)).cache x
        ((stateAfter period started bound).board.inherited (stateAfter period started bound).cache
          id rows)) := by
  have hrow := Board.row?_replaceScope (stateAfter period started bound).board
    (stateAfter period started bound).cache scope rows id
  rw [hx] at hrow
  exact hrow

/-- A row that a load has bound is listed as unpriced exactly if its candidates have no price and
its cell showed none when it was bound, or if their price has no text of its own. -/
theorem mem_unpriced_iff_of_bound {bound listed : Past} {now : Instant} {scope : String}
    {rows : List Binding} (hlisted : Meanwhile OnlyMerges
      ((now, .command (.replaceRows scope rows)) :: bound) listed)
    {id : RowId} {x : Binding} (hx : lastBinding? rows id = some x)
    (hscope : Text.startsWith scope id = true) :
    id ∈ (stateAfter period started listed).board.unpriced scope ↔
      match (stateAfter period started listed).cache.first? x.candidates with
      | some price => Price.text price = placeholder
      | none =>
        let inherited := (stateAfter period started bound).board.inherited
          (stateAfter period started bound).cache id rows
        inherited = none ∨ inherited = some placeholder := by
  have hrow := row?_of_meanwhile hlisted (row?_of_replaceRows period started bound now scope hx)
  refine Iff.trans ?_ (Row.isUnpriced_bound _ x _)
  rw [Board.mem_unpriced_iff (Engine.namesRows_stateAfter period started listed), hrow]
  constructor
  · rintro ⟨r, hr, -, hunpriced⟩
    cases hr
    exact hunpriced
  · intro hunpriced
    exact ⟨_, rfl, hscope, hunpriced⟩

/-- **Which rows a load resolves.** A load that runs to its end, while the engine does nothing else
but take in prices, binds the rows of the table, later is told which rows are unpriced, and passes
the instruments of exactly these rows on. A row that the load has bound is among them exactly if
its candidates have no price by then and its cell showed none when the row was bound, or if their
price has no text of its own. -/
theorem contractsAsked_loadTable {user : String} {table : Table} {summary : Summary}
    (h : Course period started OnlyMerges (loadTable user table) past talk final (.ok summary)) :
    ∃ rows before bound now listed after, ∃ ids : List RowId,
      let scope := tableScope user table
      let bindings := tableBindings user table rows
      let atBinding := (now, .command (.replaceRows scope bindings)) :: bound
      ⟨.rows user table, .ok rows, before, before⟩ ∈ talk ∧
      ⟨.replaceRows scope bindings, .ok (), bound, atBinding⟩ ∈ talk ∧
      ⟨.unpriced scope, .ok ids, listed, after⟩ ∈ talk ∧
      Meanwhile OnlyMerges past bound ∧ Meanwhile OnlyMerges atBinding listed ∧
      contractsAsked talk = ids.filterMap (instrument? (namedRows user table rows)) ∧
      ∀ id x, lastBinding? bindings id = some x →
        (id ∈ ids ↔
          match (stateAfter period started listed).cache.first? x.candidates with
          | some price => Price.text price = placeholder
          | none =>
            let s := stateAfter period started bound
            let inherited := s.board.inherited s.cache id bindings
            inherited = none ∨ inherited = some placeholder) := by
  obtain ⟨rows, before, bound, now, listed, ids, after, hrows, hbinding, hunpriced, hbound, hlisted,
    hids, hasked⟩ := of_loadTable h
  refine ⟨rows, before, bound, now, listed, after, ids, hrows, hbinding, hunpriced, hbound, hlisted,
    hasked, ?_⟩
  intro id x hx
  have hlast : (lastBinding? (tableBindings user table rows) id).isSome = true := by
    rw [hx, Option.isSome_some]
  have hscope := startsWith_of_mem_nameRows (lastBinding?_isSome_iff.mp hlast)
  rw [hids]
  exact mem_unpriced_iff_of_bound hlisted hx hscope

/-! ## A row that is not resolved again -/

/-- A row of the cash market. -/
def cashRow : TradeRow := ⟨some "1", { exchange := some "NC", symbol := "X" }, none⟩

/-- A load binds `cashRow`, asks for its price in vain, and asks which rows are unpriced. -/
def loadedPast (now : Instant) (request : RequestId) (earlier : Past) : Past :=
  (now + 3, .command (.unpriced (request + 1) (tableScope "u" .requests))) ::
    (now + 2, .fetched (.prices request) TextMap.empty) ::
    (now + 1, .command (.prices request (tableKeys (namedRows "u" .requests [cashRow])))) ::
    (now, .command (.replaceRows (tableScope "u" .requests)
      (tableBindings "u" .requests [cashRow]))) :: earlier

/-- A first load resolves the row to a contract, the price of which is then found. -/
def resolvedPast : Past :=
  (6, .fetched (.price 3 "NC:X1") (TextMap.ofList [("NC:X1", ⟨0x4024000000000000⟩)])) ::
    (5, .command (.price 3 "NC:X1")) ::
    (4, .command (.attach "u/requests/1" (some "77") "NC:X1")) :: loadedPast 0 1 []

/-- A second load binds the row again. -/
def reloadedPast : Past := loadedPast 10 4 resolvedPast

/-- A load of the row is answered all it asks before it resolves rows. -/
theorem exists_course_of_loadedPast (now : Instant) (request : RequestId) (earlier final : Past)
    {talk : List Exchange} {count : Nat} {ids : List RowId}
    (hclosed : (stateAfter 1000 0 ((loadedPast now request earlier).drop 3)).connection.isOpen =
      false)
    (hids : (stateAfter 1000 0 ((loadedPast now request earlier).drop 1)).board.unpriced
      (tableScope "u" .requests) = ids)
    (hresolve : Course 1000 0 OnlyMerges (resolveRows (namedRows "u" .requests [cashRow]) ids)
      (loadedPast now request earlier) talk final count) :
    ∃ asked, contractsAsked asked = [] ∧ (∀ e ∈ asked, e.answer.isOk = true) ∧
      Course 1000 0 OnlyMerges (loadTable "u" .requests) earlier (asked ++ talk) final
        (.ok ⟨1, ids.length, count⟩) := by
  subst hids
  have hkeys : tableKeys (namedRows "u" .requests [cashRow]) ≠ [] := by decide +kernel
  have hfill := Answered.prices_of_fetch 1000 0 OnlyMerges _ request (now + 1) (now + 2)
    (tableKeys (namedRows "u" .requests [cashRow])) TextMap.empty hclosed
  have hlist := Answered.unpriced_now 1000 0 OnlyMerges
    ((loadedPast now request earlier).drop 1) (request + 1) (now + 3) (tableScope "u" .requests)
  have hload := course_loadTable now hkeys hfill hlist hresolve
  refine ⟨[_, _, _, _], ?_, ?_, hload⟩
  · rfl
  · simp only [List.forall_mem_cons, List.not_mem_nil]
    exact ⟨rfl, rfl, rfl, rfl, nofun⟩

/-- The first load finds the row unpriced. -/
theorem exists_course_of_firstLoad (final : Past) {talk : List Exchange} {resolved : Bool}
    (hrow : Course 1000 0 OnlyMerges (resolveRow "u/requests/1" cashRow.identity)
      (loadedPast 0 1 []) talk final resolved) :
    ∃ asked, contractsAsked asked = [] ∧ (∀ e ∈ asked, e.answer.isOk = true) ∧
      Course 1000 0 OnlyMerges (loadTable "u" .requests) [] (asked ++ talk) final
        (.ok ⟨1, 1, if resolved then 1 else 0⟩) := by
  have hclosed : (stateAfter 1000 0 ((loadedPast 0 1 []).drop 3)).connection.isOpen = false := by
    decide +kernel
  have hids : (stateAfter 1000 0 ((loadedPast 0 1 []).drop 1)).board.unpriced
      (tableScope "u" .requests) = ["u/requests/1"] := by decide +kernel
  have hinstrument : (identityOf? (namedRows "u" .requests [cashRow]) "u/requests/1").filter
      Identity.hasSymbol = some cashRow.identity := by decide +kernel
  have hresolve : Course 1000 0 OnlyMerges (resolveRows (namedRows "u" .requests [cashRow])
      ["u/requests/1"]) (loadedPast 0 1 []) (talk ++ ([] ++ [])) final
      (if resolved then 1 else 0) := by
    rw [resolveRows, hinstrument]
    exact hrow.bind (Course.bind (.finished 0 _) (.finished _ _))
  rw [List.append_nil, List.append_nil] at hresolve
  exact exists_course_of_loadedPast 0 1 [] _ hclosed hids hresolve

theorem exists_course_resolvedPast : ∃ talk,
    Course 1000 0 OnlyMerges (loadTable "u" .requests) [] talk resolvedPast (.ok ⟨1, 1, 1⟩) := by
  have hkey : contractKey cashRow.identity ⟨"X1", some "77"⟩ = "NC:X1" := by decide +kernel
  have hrow : ∃ talk, Course 1000 0 OnlyMerges (resolveRow "u/requests/1" cashRow.identity)
      (loadedPast 0 1 []) talk resolvedPast true := by
    apply Exists.intro
    apply Course.exchange (a := .contract _) (.ok (some ⟨"X1", some "77"⟩)) (.contract _ _)
    apply Course.exchange (a := .attach _ _ _) (.ok ()) (.attach 4 _ _ _)
    rw [hkey]
    exact Course.exchange (a := .price _) _ (.price_of_fetch _ _ _ _ 3 5 6 _
      (TextMap.ofList [("NC:X1", ⟨0x4024000000000000⟩)]) (by decide +kernel) (by decide +kernel))
      (.finished true resolvedPast)
  obtain ⟨talk, hrow⟩ := hrow
  obtain ⟨asked, -, -, hload⟩ := exists_course_of_firstLoad resolvedPast hrow
  exact ⟨asked ++ talk, hload⟩

theorem exists_course_reloadedPast : ∃ talk, contractsAsked talk = [] ∧
    Course 1000 0 OnlyMerges (loadTable "u" .requests) resolvedPast talk reloadedPast
      (.ok ⟨1, 0, 0⟩) := by
  have hclosed : (stateAfter 1000 0 ((loadedPast 10 4 resolvedPast).drop 3)).connection.isOpen =
      false := by decide +kernel
  have hids : (stateAfter 1000 0 ((loadedPast 10 4 resolvedPast).drop 1)).board.unpriced
      (tableScope "u" .requests) = [] := by decide +kernel
  obtain ⟨asked, hnone, -, hload⟩ :=
    exists_course_of_loadedPast 10 4 resolvedPast _ hclosed hids (.finished 0 _)
  exact ⟨asked ++ [], by rw [List.append_nil, hnone], hload⟩

/-- What `contractsAsked_loadTable` tells of the second load. -/
theorem contractsAsked_loadTable_reloaded : ∃ talk,
    Course 1000 0 OnlyMerges (loadTable "u" .requests) resolvedPast talk reloadedPast
      (.ok ⟨1, 0, 0⟩) ∧
    ∃ rows listed after, ∃ ids : List RowId,
      ⟨.unpriced (tableScope "u" .requests), .ok ids, listed, after⟩ ∈ talk ∧
      contractsAsked talk = ids.filterMap (instrument? (namedRows "u" .requests rows)) := by
  obtain ⟨talk, -, hcourse⟩ := exists_course_reloadedPast
  obtain ⟨rows, _, _, _, listed, after, ids, -, -, hunpriced, -, -, hasked, -⟩ :=
    contractsAsked_loadTable hcourse
  exact ⟨talk, hcourse, rows, listed, after, ids, hunpriced, hasked⟩

/-- The second load takes the key of its price from the row, which is without a price then and not
resolved again: it goes on showing the price of the key that it has lost. -/
theorem exists_row_not_resolved_again : ∃ first second,
    Course 1000 0 OnlyMerges (loadTable "u" .requests) [] first resolvedPast (.ok ⟨1, 1, 1⟩) ∧
    Course 1000 0 OnlyMerges (loadTable "u" .requests) resolvedPast second reloadedPast
      (.ok ⟨1, 0, 0⟩) ∧
    (stateAfter 1000 0 reloadedPast).board.row? "u/requests/1" =
      some { id := "u/requests/1", candidates := ["NSE:X"], scrip := none, shown := some "10.00" } ∧
    (stateAfter 1000 0 reloadedPast).cache.first? ["NSE:X"] = none ∧
    instrument? (namedRows "u" .requests [cashRow]) "u/requests/1" = some cashRow.identity ∧
    cashRow.identity ∉ contractsAsked second := by
  obtain ⟨first, hfirst⟩ := exists_course_resolvedPast
  obtain ⟨second, hasked, hsecond⟩ := exists_course_reloadedPast
  refine ⟨first, second, hfirst, hsecond, by decide +kernel, by decide +kernel,
    by decide +kernel, ?_⟩
  rw [hasked]
  exact List.not_mem_nil

end QuoteBoard.Dashboard
