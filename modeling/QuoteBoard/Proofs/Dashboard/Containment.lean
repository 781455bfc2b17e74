/-
# What a failure leaves as it is

The loader gets rows and contracts from a backend that may fail at any time. A failure ends
the stage in which it happens and nothing else: the next row, the next table and the next
user have their turn all the same. It also does nothing. The loader changes rows by two
commands alone, one when the rows of a table have come and one when a contract has been
found, so what happens to a row without these is the doing of others, or a price of one of
the row's own keys has arrived.
-/

import Mathlib.Data.List.Nodup
import QuoteBoard.Proofs.Dashboard.Resolution
import QuoteBoard.Proofs.Dashboard.Stages

namespace QuoteBoard.Dashboard

open QuoteBoard.Engine (Event Instant Past State performed stateAfter)

/-- The row of a name. -/
def rowOf (id : RowId) (s : State) : Option Row := s.board.row? id

/-- What the row of a name is bound to: its candidates and its scrip code. -/
def bindingOf (id : RowId) (s : State) : Option Binding := (rowOf id s).map Row.toBinding

/-- A fetch is complete that has found a price of one of the keys of a row. -/
def PriceArrives (id : RowId) (s : State) (e : Event) : Prop :=
  ∃ asker found r, e = .fetched asker found ∧ rowOf id s = some r ∧
    r.references (found.entries.map Prod.fst) = true

/-- From one past to another an aspect of the engine changes only by events of a certain cause. -/
inductive ChangedOnlyBy (period : Nat) (started : Instant) (cause : State → Event → Prop) {β : Type}
    (aspect : State → β) (before : Past) : Past → Prop
  | start : ChangedOnlyBy period started cause aspect before before
  | handled {past : Past} (now : Instant) (e : Event)
      (h : ChangedOnlyBy period started cause aspect before past)
      (he : cause (stateAfter period started past) e ∨
        aspect (stateAfter period started ((now, e) :: past)) =
          aspect (stateAfter period started past)) :
      ChangedOnlyBy period started cause aspect before ((now, e) :: past)

/-- The loader does this without attaching anything to the row of a name: it asks for prices, takes
them in, and attaches contracts to other rows. -/
def Elsewhere (id : RowId) : Event → Prop
  | .command (.attach row _ _) => row ≠ id
  | .command (.prices ..) | .command (.price ..) | .fetched .. => True
  | .command .startStream | .command (.replaceRows ..) | .command (.unpriced ..) | .stream _
  | .pollTick => False

section Statements

variable (period : Nat) (started : Instant) (allowed : Event → Prop)

/-- What becomes of the rows of a table that are listed as unpriced. Each of them that has a symbol
is passed to the broker's list of contracts, and no others are, in order, whatever comes of the
others. Where nothing comes of it the loader does nothing, and until the end of the load the row is
bound to what it was bound to, unless others change that, and changes only with them and with the
prices of its keys. -/
structure ResolvesEach (table : List NamedRow) (ids : List RowId) (listed : Past)
    (talk : List Exchange) (final : Past)
    (stages : List (Stage period started allowed resolveNamed)) : Prop where
  each : ∀ r, LastOfName table r → r.binding.id ∈ ids → Text.trim r.identity.symbol ≠ "" →
    ∃ s ∈ stages, s.item = (r.binding.id, r.identity)
  no_other : ∀ s ∈ stages, ∃ r, LastOfName table r ∧ Text.trim r.identity.symbol ≠ "" ∧
    s.item = (r.binding.id, r.identity)
  in_order : (stages.map fun s => s.item.1).Sublist ids
  fallsInto : FallsInto (stages.map Stage.item) listed talk final stages
  passed_on : ∀ s ∈ stages, ∃ answer asked rest,
    s.talk = ⟨.contract s.item.2, answer, asked, asked⟩ :: rest ∧
      (s.result = true ↔ ∃ contract, answer = .ok (some contract))
  nothing_done : ∀ s ∈ stages, s.result = false → Meanwhile allowed s.before s.after
  binding_kept : ∀ s ∈ stages, s.result = false →
    ChangedOnlyBy period started (fun _ e => allowed e) (bindingOf s.item.1) listed final
  row_kept : ∀ s ∈ stages, s.result = false →
    ChangedOnlyBy period started (fun s' e => allowed e ∨ PriceArrives s.item.1 s' e)
      (rowOf s.item.1) listed final

/-- The load of a table contains its failures. It asks for the rows of the table first. If that
fails the load does nothing, so every row changes with the others only. Otherwise it achieves what
it can: the rows that are listed as unpriced later on are all seen to. -/
def Contained (user : String) (load : Stage period started allowed (loadTable user)) : Prop :=
  ∃ answer asked rest, load.talk = ⟨.rows user load.item, answer, asked, asked⟩ :: rest ∧
    match answer with
    | .error e =>
      load.result = .error e ∧ Meanwhile allowed load.before load.after ∧
        ∀ id, ChangedOnlyBy period started (fun _ e => allowed e) (rowOf id) load.before load.after
    | .ok rows =>
      ∃ first listing listed talk stages,
        let table := namedRows user load.item rows
        let scope := tableScope user load.item
        let ids := (stateAfter period started listed).board.unpriced scope
        rest = first ++ ⟨.unpriced scope, .ok ids, listing, listed⟩ :: talk ∧
          load.before <:+ listed ∧
          (∀ id, id ∈ ids ↔ ∃ r, rowOf id (stateAfter period started listed) = some r ∧
            Text.startsWith scope id = true ∧ (r.shown = none ∨ r.shown = some placeholder)) ∧
          load.result = .ok ⟨table.length, ids.length, (stages.map Stage.result).count true⟩ ∧
          ResolvesEach period started allowed table ids listed talk load.after stages

/-- The load of a user contains its failures. Both tables are loaded, one after the other, whatever
comes of the first, and each load contains its own failures. -/
def LoadsContained (user : String) (past : Past) (talk : List Exchange) (final : Past)
    (summary : Summary) : Prop :=
  ∃ loads : List (Stage period started allowed (loadTable user)),
    FallsInto Table.all past talk final loads ∧ summary = Summary.total (loads.map Stage.result) ∧
      ∀ load ∈ loads, Contained period started allowed user load

end Statements

variable {period : Nat} {started : Instant} {allowed : Event → Prop}
  {before after past final : Past} {talk : List Exchange}

/-! ## What changes a row -/

theorem changedOnlyBy_of_meanwhile {wider : Event → Prop} {cause : State → Event → Prop}
    {β : Type} {aspect : State → β} (h : Meanwhile wider before after)
    (hwider : ∀ e, wider e → ∀ s now, cause s e ∨ aspect (s.step now e).1 = aspect s) :
    ChangedOnlyBy period started cause aspect before after := by
  obtain ⟨newer, rfl, hnewer⟩ := h
  induction newer with
  | nil => exact .start
  | cons p newer ih =>
      obtain ⟨now, e⟩ := p
      have hearlier := ih fun q hq => hnewer q (List.mem_cons_of_mem _ hq)
      exact .handled now e hearlier (hwider e (hnewer (now, e) List.mem_cons_self) _ now)

theorem rowOf_step (id : RowId) (s : State) (now : Instant) (e : Event) :
    rowOf id (s.step now e).1 = (performed s.desk e.operation?).desk.board.row? id :=
  congrArg (fun d : Desk => d.board.row? id) (Engine.carries_step s now e).desk

/-- What the loader does elsewhere changes a row only if a price of one of its keys arrives. -/
theorem rowOf_step_of_elsewhere {id : RowId} {e : Event} (h : Elsewhere id e) (s : State)
    (now : Instant) : PriceArrives id s e ∨ rowOf id (s.step now e).1 = rowOf id s := by
  rw [rowOf_step]
  cases e with
  | stream | pollTick => cases h
  | fetched asker found =>
      cases hrow : rowOf id s with
      | none =>
          right
          refine (Desk.row?_perform_merge s.desk found.entries id).trans ?_
          exact congrArg (Option.map _) hrow
      | some r =>
          by_cases hreferences : r.references (found.entries.map Prod.fst) = true
          · exact Or.inl ⟨asker, found, r, rfl, hrow, hreferences⟩
          · right
            refine (Desk.row?_perform_merge s.desk found.entries id).trans ?_
            refine (congrArg (Option.map _) hrow).trans ?_
            rw [Option.map_some, if_neg hreferences]
  | command c =>
      right
      cases c with
      | attach row scrip key =>
          exact (Board.row?_attach s.board s.cache row scrip key id).trans
            (if_neg (Ne.symm h))
      | prices | price => rfl
      | startStream | replaceRows | unpriced => cases h

/-- What the loader does elsewhere leaves a row bound to what it was bound to. -/
theorem bindingOf_step_of_elsewhere {id : RowId} {e : Event} (h : Elsewhere id e) (s : State)
    (now : Instant) : bindingOf id (s.step now e).1 = bindingOf id s := by
  rcases rowOf_step_of_elsewhere h s now with ⟨asker, found, r, rfl, hrow, -⟩ | hkept
  · rw [bindingOf, rowOf_step, bindingOf, hrow, Option.map_some]
    have hmerge := Desk.row?_perform_merge s.desk found.entries id
    refine (congrArg (Option.map Row.toBinding) hmerge).trans ?_
    refine (congrArg (fun row => Option.map Row.toBinding (Option.map _ row)) hrow).trans ?_
    rw [Option.map_some, Option.map_some]
    split <;> rfl
  · rw [bindingOf, hkept, bindingOf]

/-! ## Questions and their answers -/

/-- A question to the backend concerns the engine neither when it is asked nor when it is
answered. -/
theorem Course.ask_backend {α : Type} {a : Ask} {next : Except AskError a.Reply → Dialogue α}
    {result : α} (h : Course period started allowed (.ask a next) past talk final result)
    (ha : a.ofEngine = false) :
    ∃ answer asked rest, Meanwhile allowed past asked ∧ talk = ⟨a, answer, asked, asked⟩ :: rest ∧
      Course period started allowed (next answer) asked rest final result := by
  obtain ⟨answer, asked, later, rest, hasked, hanswered, rfl, hrest⟩ := h.ask_inv
  have hlater : later = asked := by
    cases hanswered with
    | rows | contract | failed => rfl
    | replaceRows | attach | prices | price | unpriced => cases ha
  subst hlater
  exact ⟨answer, later, rest, hasked, rfl, hrest⟩

/-- A question to an engine that serves has a reply. -/
theorem Course.ask_engine {α : Type} {a : Ask} {next : Except AskError a.Reply → Dialogue α}
    {result : α} (h : Course period started allowed (.ask a next) past talk final result)
    (ha : a.ofEngine = true) (hserves : EngineServes talk) :
    ∃ reply asked later rest, Meanwhile allowed past asked ∧
      Answered period started allowed asked a (.ok reply) later ∧
      talk = ⟨a, .ok reply, asked, later⟩ :: rest ∧
      Course period started allowed (next (.ok reply)) later rest final result := by
  obtain ⟨answer, asked, later, rest, hasked, hanswered, rfl, hrest⟩ := h.ask_inv
  cases answer with
  | ok reply => exact ⟨reply, asked, later, rest, hasked, hanswered, rfl, hrest⟩
  | error e => cases hserves _ List.mem_cons_self ha

/-- To attach a contract to a row does nothing to another one. -/
theorem Answered.attach_elsewhere {row id : RowId} {scrip : Option String} {key : Key}
    {answer : Except AskError Unit}
    (h : Answered period started allowed before (.attach row scrip key) answer after)
    (hother : row ≠ id) : Meanwhile (fun e => allowed e ∨ Elsewhere id e) before after := by
  cases h with
  | attach now row scrip key =>
      have helsewhere : Elsewhere id (.command (.attach row scrip key)) := hother
      exact (Meanwhile.refl before).cons now (Or.inr helsewhere)
  | failed a e => exact .refl before

/-- To price a key attaches nothing. -/
theorem Answered.price_elsewhere {key : Key} {answer : Except AskError (Option Binary64)}
    (h : Answered period started allowed before (.price key) answer after) (id : RowId) :
    Meanwhile (fun e => allowed e ∨ Elsewhere id e) before after := by
  cases h with
  | price request key found after hreplied =>
      have hcommand : Elsewhere id (.command (.price request key)) := trivial
      exact hreplied.meanwhile hcommand fun _ _ => trivial
  | failed a e => exact .refl before

/-! ## Rows that are not resolved -/

/-- To resolve a row is to ask for its contract. If there is none to be had, nothing is done, and
otherwise nothing to any other row. -/
theorem of_resolveRow {row : RowId} {identity : Identity} {resolved : Bool}
    (h : Course period started allowed (resolveRow row identity) past talk final resolved)
    (hserves : EngineServes talk) :
    ∃ answer asked rest, talk = ⟨.contract identity, answer, asked, asked⟩ :: rest ∧
      (resolved = true ↔ ∃ contract, answer = .ok (some contract)) ∧
      (resolved = false → Meanwhile allowed past final) ∧
      ∀ id, (id = row → resolved = false) →
        Meanwhile (fun e => allowed e ∨ Elsewhere id e) past final := by
  obtain ⟨answer, asked, rest, hasked, rfl, hrest⟩ := Course.ask_backend h rfl
  -- the dialogue is over unless a contract has been found
  have hover (h : Course period started allowed (.finished false) asked rest final resolved) :
      resolved = false ∧ Meanwhile allowed past final := by
    obtain ⟨rfl, -, hfinal⟩ := h.finished_inv
    exact ⟨rfl, hasked.trans hfinal⟩
  refine ⟨answer, asked, rest, rfl, ?_⟩
  rcases answer with e | _ | contract
  · obtain ⟨rfl, hfinal⟩ := hover hrest
    exact ⟨⟨nofun, nofun⟩, fun _ => hfinal, fun id _ => hfinal.mono fun e he => Or.inl he⟩
  · obtain ⟨rfl, hfinal⟩ := hover hrest
    exact ⟨⟨nofun, nofun⟩, fun _ => hfinal, fun id _ => hfinal.mono fun e he => Or.inl he⟩
  · obtain ⟨_, attaching, attached, rest, hattaching, hattached, rfl, hprice⟩ :=
      hrest.ask_engine rfl hserves.tail
    obtain ⟨_, pricing, priced, rest, hpricing, hpriced, rfl, hend⟩ :=
      hprice.ask_engine rfl hserves.tail.tail
    obtain ⟨rfl, -, hfinal⟩ := hend.finished_inv
    refine ⟨⟨fun _ => ⟨contract, rfl⟩, fun _ => rfl⟩, nofun, fun id hid => ?_⟩
    have hother : row ≠ id := by
      rintro rfl
      cases hid rfl
    have hattach := hattached.attach_elsewhere hother
    have hprice := hpriced.price_elsewhere id
    have hothers {first last : Past} (h : Meanwhile allowed first last) :
        Meanwhile (fun e => allowed e ∨ Elsewhere id e) first last := h.mono fun e he => Or.inl he
    exact (((hothers (hasked.trans hattaching)).trans hattach).trans (hothers hpricing)).trans
      (hprice.trans (hothers hfinal))

/-- The resolution of unpriced rows sees to each of them. -/
theorem resolvesEach_of_course {table : List NamedRow} {ids : List RowId} {count : Nat}
    (h : Course period started allowed (resolveRows table ids) past talk final count)
    (hids : ids.Nodup) (hserves : EngineServes talk) :
    ∃ stages, count = (stages.map Stage.result).count true ∧
      ResolvesEach period started allowed table ids past talk final stages := by
  obtain ⟨stages, hstages, hcount⟩ := stages_of_resolveRows h
  have hrow {s : Stage period started allowed resolveNamed} (hs : s ∈ stages) :=
    of_resolveRow s.course (hstages.engineServes hserves hs)
  -- each row is resolved once, so a row that comes to nothing is nobody else's
  have hnames : (stages.map fun s => s.item.1) = (rowsToResolve table ids).map Prod.fst := by
    rw [← hstages.items_eq, List.map_map]
    rfl
  have hsublist : (stages.map fun s => s.item.1).Sublist ids :=
    hnames ▸ rowsToResolve_sublist table ids
  have hdistinct := hids.sublist hsublist
  have helsewhere {s : Stage period started allowed resolveNamed} (hs : s ∈ stages)
      (hfruitless : s.result = false) :
      Meanwhile (fun e => allowed e ∨ Elsewhere s.item.1 e) past final := by
    apply hstages.inTurn.meanwhile fun e he => Or.inl he
    intro other hother
    obtain ⟨answer, asked, rest, -, -, -, hall⟩ := hrow hother
    refine hall s.item.1 fun hsame => ?_
    have hequal := List.inj_on_of_nodup_map hdistinct hother hs hsame.symm
    rw [hequal]
    exact hfruitless
  have hitem {item : RowId × Identity} :
      (∃ s ∈ stages, s.item = item) ↔ item ∈ rowsToResolve table ids := by
    rw [← hstages.items_eq, List.mem_map]
  refine ⟨stages, hcount, ?_, ?_, hsublist, ?_, ?_, ?_, ?_, ?_⟩
  · intro r hlast hlisted hsymbol
    exact hitem.mpr (mem_rowsToResolve_iff.mpr ⟨hlisted, r, hlast, hsymbol, rfl⟩)
  · intro s hs
    exact (mem_rowsToResolve_iff.mp (hitem.mp ⟨s, hs, rfl⟩)).2
  · rw [hstages.items_eq]
    exact hstages
  · intro s hs
    obtain ⟨answer, asked, rest, htalk, hresult, -⟩ := hrow hs
    exact ⟨answer, asked, rest, htalk, hresult⟩
  · intro s hs hfruitless
    obtain ⟨answer, asked, rest, -, -, hnothing, -⟩ := hrow hs
    exact hnothing hfruitless
  · intro s hs hfruitless
    apply changedOnlyBy_of_meanwhile (helsewhere hs hfruitless)
    rintro e (hallowed | hother) s' now
    · exact Or.inl hallowed
    · exact Or.inr (bindingOf_step_of_elsewhere hother s' now)
  · intro s hs hfruitless
    apply changedOnlyBy_of_meanwhile (helsewhere hs hfruitless)
    rintro e (hallowed | hother) s' now
    · exact Or.inl (Or.inl hallowed)
    · exact (rowOf_step_of_elsewhere hother s' now).imp_left Or.inr

/-! ## Tables that are not loaded -/

/-- To fill in prices succeeds if the engine serves. -/
theorem eq_ok_of_fill {keys : List Key} {result : Except AskError Unit}
    (h : Course period started allowed (fill keys) past talk final result)
    (hserves : EngineServes talk) : result = .ok () := by
  unfold fill at h
  split at h
  · exact h.finished_inv.1
  · obtain ⟨_, _, _, _, -, -, rfl, hrest⟩ := h.ask_engine rfl hserves
    exact hrest.finished_inv.1

/-- The rows that are listed are resolved, and what comes of it is told. -/
theorem of_resolveUnpriced_served {scope : String} {table : List NamedRow}
    {result : Except AskError Summary}
    (h : Course period started allowed (resolveUnpriced scope table) past talk final result)
    (hserves : EngineServes talk) :
    ∃ listing listed rest stages,
      let ids := (stateAfter period started listed).board.unpriced scope
      talk = ⟨.unpriced scope, .ok ids, listing, listed⟩ :: rest ∧ past <:+ listed ∧
        (∀ id, id ∈ ids ↔ ∃ r, rowOf id (stateAfter period started listed) = some r ∧
          Text.startsWith scope id = true ∧ (r.shown = none ∨ r.shown = some placeholder)) ∧
        result = .ok ⟨table.length, ids.length, (stages.map Stage.result).count true⟩ ∧
        ResolvesEach period started allowed table ids listed rest final stages := by
  obtain ⟨ids, listing, listed, rest, hlisting, hanswered, rfl, hrest⟩ :=
    Course.ask_engine h rfl hserves
  have hids : ids = (stateAfter period started listed).board.unpriced scope := by
    cases hanswered with
    | unpriced request scope ids after hreplied =>
        obtain ⟨hids, hboard⟩ := listed_of_replied hreplied
        rw [hids, hboard]
  obtain ⟨count, first, middle, second, rfl, hfirst, hsecond⟩ := Course.bind_inv hrest
  obtain ⟨rfl, rfl, hfinal⟩ := Course.finished_inv hsecond
  have hnodup : ids.Nodup := by
    rw [hids]
    exact Board.nodup_unpriced (Engine.namesRows_stateAfter period started listed) scope
  obtain ⟨stages, rfl, hstages⟩ :=
    resolvesEach_of_course (hfirst.before_meanwhile hfinal) hnodup hserves.tail.left
  subst hids
  rw [List.append_nil]
  refine ⟨listing, listed, first, stages, rfl, hlisting.suffix.trans hanswered.suffix, fun id => ?_,
    rfl, hstages⟩
  simp only [rowOf, ← Row.isUnpriced_iff]
  exact Board.mem_unpriced_iff (Engine.namesRows_stateAfter period started listed)

theorem contained_of_course {user : String} (load : Stage period started allowed (loadTable user))
    (hserves : EngineServes load.talk) : Contained period started allowed user load := by
  obtain ⟨table, past, talk, final, result, course⟩ := load
  obtain ⟨answer, asked, rest, hasked, rfl, hload⟩ := Course.ask_backend course rfl
  refine ⟨answer, asked, rest, rfl, ?_⟩
  cases answer with
  | error e =>
      obtain ⟨hresult, -, hfinal⟩ := hload.finished_inv
      have hnothing := hasked.trans hfinal
      refine ⟨hresult, hnothing, fun id => ?_⟩
      exact changedOnlyBy_of_meanwhile hnothing fun e he _ _ => Or.inl he
  | ok rows =>
      obtain ⟨_, binding, bound, rest, hbinding, hbound, rfl, hfilling⟩ :=
        hload.ask_engine rfl hserves.tail
      obtain ⟨filled, first, middle, second, rfl, hfirst, hsecond⟩ := Course.bind_inv hfilling
      have hrest := hserves.tail.tail
      cases eq_ok_of_fill hfirst hrest.left
      obtain ⟨listing, listed, rest, stages, rfl, hlisted, hids, hresult, hstages⟩ :=
        of_resolveUnpriced_served hsecond hrest.right
      have hbefore := (hasked.suffix.trans hbinding.suffix).trans hbound.suffix
      refine ⟨_ :: first, listing, listed, rest, stages, rfl, ?_, hids, hresult, hstages⟩
      exact (hbefore.trans hfirst.suffix).trans hlisted

theorem loadsContained_of_course {user : String} {summary : Summary}
    (h : Course period started allowed (loadUser user) past talk final summary)
    (hserves : EngineServes talk) :
    LoadsContained period started allowed user past talk final summary := by
  obtain ⟨loads, hloads, hsummary⟩ := stages_of_loadTables h
  refine ⟨loads, hloads, hsummary, fun load hload => ?_⟩
  exact contained_of_course load (hloads.engineServes hserves hload)

/-- **Failures are contained.** Whatever the backend replies, at any time, the load of a user goes
on to its end, and so does a loader that loads users so many times over. As long as the engine
serves, whatever else it handles, the load of a user loads both tables and contains their failures,
and a loader loads the users in order, each with its failures contained. -/
theorem failures_contained (period : Nat) (started : Instant) (allowed : Event → Prop)
    (b : Replies) (users : List String) (rounds : Nat) (past : Past) :
    (∀ user, ∃ talk final summary,
      Course period started allowed (loadUser user) past talk final summary ∧ b.Explain [] talk) ∧
    (∃ talk final,
      Course period started allowed (loadRounds users rounds) past talk final () ∧
        b.Explain [] talk) ∧
    ∀ talk final, EngineServes talk →
      (∀ user summary, Course period started allowed (loadUser user) past talk final summary →
        LoadsContained period started allowed user past talk final summary) ∧
      (Course period started allowed (loadRounds users rounds) past talk final () →
        ∃ visits : List (Stage period started allowed loadUser),
          FallsInto (List.replicate rounds users).flatten past talk final visits ∧
          ∀ visit ∈ visits, LoadsContained period started allowed visit.item visit.before visit.talk
            visit.after visit.result) := by
  refine ⟨fun user => exists_course b (loadUser user) [] past, ?_, ?_⟩
  · obtain ⟨talk, final, _, h⟩ := exists_course b (loadRounds users rounds) [] past
    exact ⟨talk, final, h⟩
  · intro talk final hserves
    refine ⟨fun user summary h => loadsContained_of_course h hserves, fun h => ?_⟩
    obtain ⟨visits, hvisits⟩ := stages_of_loadRounds h
    refine ⟨visits, hvisits, fun visit hvisit => ?_⟩
    exact loadsContained_of_course visit.course (hvisits.engineServes hserves hvisit)

/-! ## A load in trouble -/

/-- A backend that delivers trade requests but no executed trades, and no contracts. -/
def troubled : Replies where
  rows _ _
    | .requests => .ok [cashRow]
    | .executed => .error (.backend "")
  contract _ _ := .error (.backend "")

theorem exists_course_of_troubled : ∃ talk, EngineServes talk ∧
    contractsAsked talk = [cashRow.identity] ∧
    Course 1000 0 OnlyMerges (loadUser "u") [] talk (loadedPast 0 1 []) ⟨1, 1, 0⟩ := by
  have hrow : Course 1000 0 OnlyMerges (resolveRow "u/requests/1" cashRow.identity)
      (loadedPast 0 1 []) [⟨.contract cashRow.identity, .error (.backend ""), _, _⟩]
      (loadedPast 0 1 []) false :=
    .exchange (a := .contract _) _ (.contract _ _) (.finished false _)
  have hexecuted : Course 1000 0 OnlyMerges (loadTable "u" .executed) (loadedPast 0 1 [])
      [⟨.rows "u" .executed, .error (.backend ""), _, _⟩] (loadedPast 0 1 [])
      (.error (.backend "")) :=
    .exchange (a := .rows _ _) _ (.rows _ _ _) (.finished _ _)
  obtain ⟨asked, hnone, hasked, hrequests⟩ := exists_course_of_firstLoad _ hrow
  have htables : Course 1000 0 OnlyMerges (loadTables "u" [.executed]) (loadedPast 0 1 []) _
      (loadedPast 0 1 []) Summary.none :=
    hexecuted.bind (.bind (.finished Summary.none _) (.finished _ _))
  refine ⟨_, ?_, ?_, hrequests.bind (.bind htables (.finished _ _))⟩
  · intro e he hengine
    simp only [List.append_nil, List.mem_append, List.mem_singleton] at he
    rcases he with (he | rfl) | rfl
    · exact hasked e he
    · cases hengine
    · cases hengine
  · rw [contractsAsked_append, contractsAsked_append, hnone]
    rfl

theorem failures_contained_troubled :
    (∃ talk final, Course 1000 0 OnlyMerges (loadRounds ["u", "v"] 2) [] talk final () ∧
      troubled.Explain [] talk ∧
      ∃ visits : List (Stage 1000 0 OnlyMerges loadUser),
        FallsInto ["u", "v", "u", "v"] [] talk final visits) ∧
    ∃ talk, Course 1000 0 OnlyMerges (loadUser "u") [] talk (loadedPast 0 1 []) ⟨1, 1, 0⟩ ∧
      contractsAsked talk = [cashRow.identity] ∧
      LoadsContained 1000 0 OnlyMerges "u" [] talk (loadedPast 0 1 []) ⟨1, 1, 0⟩ := by
  obtain ⟨-, ⟨talk, final, hrun, hexplain⟩, hcontained⟩ :=
    failures_contained 1000 0 OnlyMerges troubled ["u", "v"] 2 []
  have hserves := Replies.engineServes_of_explain hexplain
  obtain ⟨visits, hvisits, -⟩ := (hcontained talk final hserves).2 hrun
  refine ⟨⟨talk, final, hrun, hexplain, visits, hvisits⟩, ?_⟩
  obtain ⟨talk, hserves, hasked, hload⟩ := exists_course_of_troubled
  exact ⟨talk, hload, hasked, (hcontained talk _ hserves).1 "u" _ hload⟩

end QuoteBoard.Dashboard
