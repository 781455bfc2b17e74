/-
# The parts of a load

A load is composed of four parts: its rows are bound, prices are filled in, the unpriced
rows are listed, and these are resolved one after the other. What a load has passed to
the broker's list of contracts is read off its course part by part, and courses of the
parts make up a course of the load.
-/

import QuoteBoard.Proofs.Dashboard.Course

namespace QuoteBoard.Dashboard

open QuoteBoard.Engine (Answer Command Event Instant Past RequestId stateAfter)

/-- An event takes in prices, or concerns neither prices nor rows. -/
def OnlyMerges (e : Event) : Prop := ∀ op, e.operation? = some op → ∃ batch, op = .merge batch

/-- The instruments that a talk has passed to the broker's list of contracts. -/
def contractsAsked (talk : List Exchange) : List Identity :=
  talk.filterMap fun e =>
    match e.ask with
    | .contract identity => some identity
    | _ => none

theorem contractsAsked_append (first second : List Exchange) :
    contractsAsked (first ++ second) = contractsAsked first ++ contractsAsked second :=
  List.filterMap_append

/-- The instrument to pass on for the row of a name, if the row has a symbol. -/
def instrument? (named : List NamedRow) (id : RowId) : Option Identity :=
  (identityOf? named id).filter Identity.hasSymbol

/-- The rows of a table as a load names them. -/
def namedRows (user : String) (table : Table) (rows : List TradeRow) : List NamedRow :=
  nameRows (tableScope user table) (dedupe rows)

/-- The bindings of a load. -/
def tableBindings (user : String) (table : Table) (rows : List TradeRow) : List Binding :=
  (namedRows user table rows).map NamedRow.binding

variable {period : Nat} {started : Instant} {past final : Past} {talk : List Exchange}

/-- The names of a table's rows lie under its scope. -/
theorem startsWith_of_mem_nameRows {scope : String} {rows : List TradeRow} {id : RowId}
    (hid : id ∈ ((nameRows scope rows).map NamedRow.binding).map Binding.id) :
    Text.startsWith scope id = true := by
  have hname (place : Nat) (row : TradeRow) :
      Text.startsWith scope (rowName scope place row) = true := by
    rw [Text.startsWith_iff, rowName]
    cases row.id with
    | none =>
        rw [String.append_assoc, String.toList_append]
        exact List.prefix_append _ _
    | some own =>
        rw [String.toList_append]
        exact List.prefix_append _ _
  simp only [nameRows, List.map_map, List.mem_map] at hid
  obtain ⟨⟨row, place⟩, -, rfl⟩ := hid
  exact hname place row

/-! ## What a course of a load tells -/

/-- The engine answers a request that is no operation while it takes in prices. -/
theorem meanwhile_of_replied {request : RequestId} {c : Command} {answer : Answer} {after : Past}
    (h : Replied period started OnlyMerges request c past answer after)
    (hc : (Event.command c).operation? = none) : Meanwhile OnlyMerges past after := by
  have hcommand : OnlyMerges (.command c) := by
    intro op hop
    rw [hc] at hop
    cases hop
  have hfetched (asker : Engine.Asker) (found : PriceMap) : OnlyMerges (.fetched asker found) :=
    fun op hop => ⟨found.entries, (Option.some.inj hop).symm⟩
  exact (h.meanwhile hcommand hfetched).mono fun e he => he.elim id id

theorem of_fill {keys : List Key} {result : Except AskError Unit}
    (h : Course period started OnlyMerges (fill keys) past talk final result) :
    contractsAsked talk = [] ∧ Meanwhile OnlyMerges past final := by
  unfold fill at h
  split at h
  · obtain ⟨-, rfl, hfinal⟩ := h.finished_inv
    exact ⟨rfl, hfinal⟩
  · obtain ⟨answer, before, after, rest, hbefore, hanswered, rfl, hrest⟩ := h.ask_inv
    obtain ⟨-, rfl, hfinal⟩ := hrest.finished_inv
    refine ⟨rfl, hbefore.trans ?_⟩
    cases hanswered with
    | prices request keys found after hreplied =>
        exact (meanwhile_of_replied hreplied rfl).trans hfinal
    | failed a e => exact hfinal

theorem contractsAsked_of_finished {α : Type} {value result : α}
    (h : Course period started OnlyMerges (.finished value) past talk final result) :
    contractsAsked talk = [] := by
  obtain ⟨-, rfl, -⟩ := h.finished_inv
  rfl

/-- To resolve a row is to pass its instrument on, once. -/
theorem contractsAsked_resolveRow {row : RowId} {identity : Identity} {resolved : Bool}
    (h : Course period started OnlyMerges (resolveRow row identity) past talk final resolved) :
    contractsAsked talk = [identity] := by
  obtain ⟨answer, before, after, rest, -, -, rfl, hrest⟩ := h.ask_inv
  -- whatever comes after the question for the contract, there is no second one
  have hnone : contractsAsked rest = [] := by
    rcases answer with e | _ | contract
    · exact contractsAsked_of_finished hrest
    · exact contractsAsked_of_finished hrest
    · obtain ⟨attached, _, _, rest, -, -, rfl, hprice⟩ := hrest.ask_inv
      change contractsAsked rest = []
      rcases attached with e | _
      · exact contractsAsked_of_finished hprice
      · obtain ⟨priced, _, _, rest, -, -, rfl, hend⟩ := hprice.ask_inv
        change contractsAsked rest = []
        rcases priced with e | _
        · exact contractsAsked_of_finished hend
        · exact contractsAsked_of_finished hend
  change identity :: contractsAsked rest = [identity]
  rw [hnone]

/-- Of the rows to resolve those with a symbol are passed on, in order. -/
theorem contractsAsked_resolveRows {table : List NamedRow} {ids : List RowId} {count : Nat}
    (h : Course period started OnlyMerges (resolveRows table ids) past talk final count) :
    contractsAsked talk = ids.filterMap (instrument? table) := by
  induction ids generalizing past final talk count with
  | nil =>
      obtain ⟨-, rfl, -⟩ := h.finished_inv
      rfl
  | cons id rest ih =>
      unfold resolveRows at h
      rw [List.filterMap_cons, instrument?]
      cases hinstrument : (identityOf? table id).filter Identity.hasSymbol with
      | none =>
          rw [hinstrument] at h
          exact ih h
      | some identity =>
          rw [hinstrument] at h
          obtain ⟨resolved, first, middle, second, rfl, hfirst, hsecond⟩ := Course.bind_inv h
          obtain ⟨others, third, last, fourth, rfl, hthird, hfourth⟩ := Course.bind_inv hsecond
          rw [contractsAsked_append, contractsAsked_append, contractsAsked_resolveRow hfirst,
            ih hthird, contractsAsked_of_finished hfourth, List.append_nil]
          rfl

/-- The engine lists the rows without a price as it has them when it is asked, and the board stays
as it is. -/
theorem listed_of_replied {allowed : Event → Prop} {request : RequestId} {scope : String}
    {ids : List RowId} {after : Past}
    (h : Replied period started allowed request (.unpriced request scope) past (.rows ids) after) :
    ids = (stateAfter period started past).board.unpriced scope ∧
      (stateAfter period started after).board = (stateAfter period started past).board := by
  have heffects (now : Instant) : ((stateAfter period started past).step now
      (.command (.unpriced request scope))).2 =
      [.reply request (.rows ((stateAfter period started past).board.unpriced scope))] := rfl
  cases h with
  | atOnce now answer hreply =>
      rw [heffects, List.mem_singleton] at hreply
      cases hreply
      exact ⟨rfl, rfl⟩
  | fetched now later answer asker keys found during hstart hduring hreply =>
      rw [heffects, List.mem_singleton] at hstart
      cases hstart

theorem of_resolveUnpriced {scope : String} {table : List NamedRow} {summary : Summary}
    (h : Course period started OnlyMerges (resolveUnpriced scope table) past talk final
      (.ok summary)) :
    ∃ listed ids after, ⟨.unpriced scope, .ok ids, listed, after⟩ ∈ talk ∧
      ids = (stateAfter period started listed).board.unpriced scope ∧
      Meanwhile OnlyMerges past listed ∧
      contractsAsked talk = ids.filterMap (instrument? table) := by
  obtain ⟨answer, listed, after, rest, hlisted, hanswered, rfl, hrest⟩ := h.ask_inv
  cases hanswered with
  | failed a e =>
      obtain ⟨hresult, -, -⟩ := hrest.finished_inv
      cases hresult
  | unpriced request scope ids after hreplied =>
      obtain ⟨count, first, middle, second, rfl, hfirst, hsecond⟩ := Course.bind_inv hrest
      obtain ⟨-, rfl, -⟩ := Course.finished_inv hsecond
      refine ⟨listed, ids, after, List.mem_cons_self, (listed_of_replied hreplied).1, hlisted, ?_⟩
      change contractsAsked (first ++ []) = _
      rw [List.append_nil, contractsAsked_resolveRows hfirst]

/-- A load that runs to its end has bound the rows of the table, and later has passed on the
instruments of exactly the rows that were listed as unpriced. -/
theorem of_loadTable {user : String} {table : Table} {summary : Summary}
    (h : Course period started OnlyMerges (loadTable user table) past talk final (.ok summary)) :
    ∃ rows before bound now listed ids after,
      let scope := tableScope user table
      let bindings := tableBindings user table rows
      let atBinding := (now, .command (.replaceRows scope bindings)) :: bound
      ⟨.rows user table, .ok rows, before, before⟩ ∈ talk ∧
      ⟨.replaceRows scope bindings, .ok (), bound, atBinding⟩ ∈ talk ∧
      ⟨.unpriced scope, .ok ids, listed, after⟩ ∈ talk ∧
      Meanwhile OnlyMerges past bound ∧ Meanwhile OnlyMerges atBinding listed ∧
      ids = (stateAfter period started listed).board.unpriced scope ∧
      contractsAsked talk = ids.filterMap (instrument? (namedRows user table rows)) := by
  obtain ⟨answer, before, after, rest, hbefore, hanswered, rfl, hload⟩ := h.ask_inv
  cases hanswered with
  | failed a e =>
      obtain ⟨hresult, -, -⟩ := hload.finished_inv
      cases hresult
  | rows user table answer =>
      cases answer with
      | error e =>
          obtain ⟨hresult, -, -⟩ := hload.finished_inv
          cases hresult
      | ok rows =>
          obtain ⟨taken, bound, after, rest, hbound, hbinding, rfl, hfilling⟩ := hload.ask_inv
          cases hbinding with
          | failed a e =>
              obtain ⟨hresult, -, -⟩ := hfilling.finished_inv
              cases hresult
          | replaceRows now scope bindings =>
              obtain ⟨filled, first, middle, second, rfl, hfirst, hsecond⟩ :=
                Course.bind_inv hfilling
              obtain ⟨hfill, hfilled⟩ := of_fill hfirst
              cases filled with
              | error e =>
                  obtain ⟨hresult, -, -⟩ := Course.finished_inv hsecond
                  cases hresult
              | ok _ =>
                  obtain ⟨listed, ids, after, hmem, hids, hlisted, hasked⟩ :=
                    of_resolveUnpriced hsecond
                  refine ⟨rows, before, bound, now, listed, ids, after, List.mem_cons_self,
                    List.mem_cons_of_mem _ List.mem_cons_self, ?_, hbefore.trans hbound,
                    hfilled.trans hlisted, hids, ?_⟩
                  · exact List.mem_cons_of_mem _
                      (List.mem_cons_of_mem _ (List.mem_append_right first hmem))
                  change contractsAsked (first ++ second) = _
                  rw [contractsAsked_append, hfill, hasked]
                  rfl

/-! ## Courses from courses of the parts -/

section Forward

variable {allowed : Event → Prop}

theorem course_fill {keys : List Key} {found : PriceMap} (hkeys : keys ≠ [])
    (hfill : Answered period started allowed past (.prices keys) (.ok found) final) :
    Course period started allowed (fill keys) past [⟨.prices keys, .ok found, past, final⟩] final
      (.ok ()) := by
  rw [fill, if_neg hkeys]
  exact Course.exchange (a := .prices keys) (.ok found) hfill (.finished _ final)

theorem course_resolveUnpriced {scope : String} {table : List NamedRow} {ids : List RowId}
    {count : Nat} {listed : Past}
    (hlist : Answered period started allowed past (.unpriced scope) (.ok ids) listed)
    (hresolve : Course period started allowed (resolveRows table ids) listed talk final count) :
    Course period started allowed (resolveUnpriced scope table) past
      (⟨.unpriced scope, .ok ids, past, listed⟩ :: talk) final
      (.ok ⟨table.length, ids.length, count⟩) := by
  apply Course.exchange (a := .unpriced scope) (.ok ids) hlist
  rw [← List.append_nil talk]
  exact hresolve.bind (.finished _ final)

/-- A load runs to its end once its questions are answered and its unpriced rows are resolved. -/
theorem course_loadTable {user : String} {table : Table} {rows : List TradeRow}
    {found : PriceMap} {ids : List RowId} {count : Nat} (now : Instant) {filled listed : Past}
    (hkeys : tableKeys (namedRows user table rows) ≠ [])
    (hfill : Answered period started allowed ((now, .command (.replaceRows (tableScope user table)
        (tableBindings user table rows))) :: past)
      (.prices (tableKeys (namedRows user table rows))) (.ok found) filled)
    (hlist : Answered period started allowed filled (.unpriced (tableScope user table)) (.ok ids)
      listed)
    (hresolve : Course period started allowed (resolveRows (namedRows user table rows) ids) listed
      talk final count) :
    let bindings := tableBindings user table rows
    let bound := (now, .command (.replaceRows (tableScope user table) bindings)) :: past
    Course period started allowed (loadTable user table) past
      (⟨.rows user table, .ok rows, past, past⟩ ::
        ⟨.replaceRows (tableScope user table) bindings, .ok (), past, bound⟩ ::
        ⟨.prices (tableKeys (namedRows user table rows)), .ok found, bound, filled⟩ ::
        ⟨.unpriced (tableScope user table), .ok ids, filled, listed⟩ :: talk) final
      (.ok ⟨(namedRows user table rows).length, ids.length, count⟩) := by
  apply Course.exchange (a := .rows user table) (.ok rows) (.rows user table _)
  apply Course.exchange (a := .replaceRows _ _) (.ok ()) (.replaceRows now _ _)
  exact Course.bind (course_fill hkeys hfill) (course_resolveUnpriced hlist hresolve)

end Forward

end QuoteBoard.Dashboard
