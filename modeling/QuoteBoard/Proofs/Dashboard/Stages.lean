/-
# Loads stage by stage

A loader does one thing after the other: table after table, user after user, row after row.
Each of these is a dialogue of its own, and what comes of one has no say in whether the next
takes place. So a course of the loader falls into stages, one for each thing to do, in
order. No course is ever stuck: whatever the backend replies, there is a course that goes on
to the end.
-/

import QuoteBoard.Proofs.Dashboard.Load

namespace QuoteBoard.Dashboard

open QuoteBoard.Backend (Contract)
open QuoteBoard.Engine (Event Instant Past stateAfter)

/-- The engine is asked, and not the backend. -/
def Ask.ofEngine : Ask → Bool
  | rows .. | contract .. => false
  | replaceRows .. | attach .. | prices .. | price .. | unpriced .. => true

/-- No question to the engine fails. -/
def EngineServes (talk : List Exchange) : Prop :=
  ∀ e ∈ talk, e.ask.ofEngine = true → e.answer.isOk = true

/-- What the backend replies. It may depend on all of the talk so far. -/
structure Replies where
  rows : List Exchange → String → Table → Except AskError (List TradeRow)
  contract : List Exchange → Identity → Except AskError (Option Contract)

namespace Replies

/-- An answer is what the backend replies, or is given by an engine that serves. -/
def Gives (b : Replies) (earlier : List Exchange) : (a : Ask) → Except AskError a.Reply → Prop
  | .rows user table, answer => answer = b.rows earlier user table
  | .contract identity, answer => answer = b.contract earlier identity
  | .replaceRows .., answer | .attach .., answer | .prices .., answer | .price .., answer
  | .unpriced .., answer => answer.isOk = true

/-- A talk that follows an earlier one goes as the backend replies. -/
def Explain (b : Replies) : List Exchange → List Exchange → Prop
  | _, [] => True
  | earlier, e :: rest => b.Gives earlier e.ask e.answer ∧ b.Explain (earlier ++ [e]) rest

theorem engineServes_of_explain {b : Replies} {earlier talk : List Exchange}
    (h : b.Explain earlier talk) : EngineServes talk := by
  induction talk generalizing earlier with
  | nil => exact fun e he => nomatch he
  | cons x rest ih =>
      intro e he hengine
      rcases List.mem_cons.mp he with rfl | he
      · obtain ⟨ask, answer, before, after⟩ := e
        cases ask with
        | rows | contract => cases hengine
        | replaceRows | attach | prices | price | unpriced => exact h.1
      · exact ih h.2 e he hengine

end Replies

namespace EngineServes

variable {first second : List Exchange}

theorem left (h : EngineServes (first ++ second)) : EngineServes first :=
  fun e he => h e (List.mem_append_left second he)

theorem right (h : EngineServes (first ++ second)) : EngineServes second :=
  fun e he => h e (List.mem_append_right first he)

theorem tail {e : Exchange} (h : EngineServes (e :: second)) : EngineServes second :=
  fun x hx => h x (List.mem_cons_of_mem e hx)

end EngineServes

/-- A part of a course: one dialogue of a kind, for one item. -/
structure Stage (period : Nat) (started : Instant) (allowed : Event → Prop) {ι β : Type}
    (d : ι → Dialogue β) where
  item : ι
  before : Past
  talk : List Exchange
  after : Past
  result : β
  course : Course period started allowed (d item) before talk after result

section Stages

variable {period : Nat} {started : Instant} {allowed : Event → Prop} {ι β : Type}
  {d : ι → Dialogue β}

/-- Stages follow one upon the other. -/
inductive InTurn : Past → List (Stage period started allowed d) → Past → Prop
  | done {past final : Past} (h : Meanwhile allowed past final) : InTurn past [] final
  | next {past final : Past} {s : Stage period started allowed d}
      {rest : List (Stage period started allowed d)} (hbefore : Meanwhile allowed past s.before)
      (hrest : InTurn s.after rest final) : InTurn past (s :: rest) final

/-- A talk from one past to another falls into stages, one for each item in order. -/
structure FallsInto (items : List ι) (past : Past) (talk : List Exchange) (final : Past)
    (stages : List (Stage period started allowed d)) : Prop where
  items_eq : stages.map Stage.item = items
  inTurn : InTurn past stages final
  talk_eq : talk = stages.flatMap Stage.talk

theorem InTurn.append {past middle final : Past}
    {first second : List (Stage period started allowed d)} (hfirst : InTurn past first middle)
    (hsecond : InTurn middle second final) : InTurn past (first ++ second) final := by
  induction hfirst with
  | done h =>
      cases hsecond with
      | done h' => exact .done (h.trans h')
      | next hbefore hrest => exact .next (h.trans hbefore) hrest
  | next hbefore hrest ih => exact .next hbefore (ih hsecond)

/-- What holds of all that is handled in the stages, and of what is handled by the way, holds of
all that is handled. -/
theorem InTurn.meanwhile {wider : Event → Prop} {past final : Past}
    {stages : List (Stage period started allowed d)} (h : InTurn past stages final)
    (hwider : ∀ e, allowed e → wider e)
    (hstages : ∀ s ∈ stages, Meanwhile wider s.before s.after) : Meanwhile wider past final := by
  induction h with
  | done h => exact h.mono hwider
  | next hbefore hrest ih =>
      have hstage := hstages _ List.mem_cons_self
      have hlater := ih fun s hs => hstages s (List.mem_cons_of_mem _ hs)
      exact ((hbefore.mono hwider).trans hstage).trans hlater

namespace FallsInto

variable {items more : List ι} {past middle final : Past} {first second talk : List Exchange}
  {stages later : List (Stage period started allowed d)}

theorem nil (h : Meanwhile allowed past final) :
    FallsInto [] past [] final ([] : List (Stage period started allowed d)) :=
  ⟨rfl, .done h, rfl⟩

theorem single {item : ι} {result : β}
    (h : Course period started allowed (d item) past talk final result) :
    FallsInto [item] past talk final
      [(⟨item, past, talk, final, result, h⟩ : Stage period started allowed d)] :=
  ⟨rfl, .next (.refl past) (.done (.refl final)), (List.append_nil talk).symm⟩

theorem append (hfirst : FallsInto items past first middle stages)
    (hsecond : FallsInto more middle second final later) :
    FallsInto (items ++ more) past (first ++ second) final (stages ++ later) where
  items_eq := by rw [List.map_append, hfirst.items_eq, hsecond.items_eq]
  inTurn := hfirst.inTurn.append hsecond.inTurn
  talk_eq := by rw [List.flatMap_append, ← hfirst.talk_eq, ← hsecond.talk_eq]

/-- More may be handled after the last stage. -/
theorem afterwards (h : FallsInto items past talk middle stages)
    (hlater : Meanwhile allowed middle final) : FallsInto items past talk final stages := by
  have happend := h.append (.nil hlater)
  simp only [List.append_nil] at happend
  exact happend

/-- The engine serves in each stage if it does in all of the talk. -/
theorem engineServes (h : FallsInto items past talk final stages) (hserves : EngineServes talk)
    {s : Stage period started allowed d} (hs : s ∈ stages) : EngineServes s.talk := by
  rw [h.talk_eq] at hserves
  exact fun e he => hserves e (List.mem_flatMap.mpr ⟨s, hs, he⟩)

end FallsInto

end Stages

/-- The tables of users are loaded so many times over, as a loader does that rests after each round
and starts anew until it is asked to stop. -/
def loadRounds (users : List String) : Nat → Dialogue Unit
  | 0 => .finished ()
  | rounds + 1 => do
    loadUsers users
    loadRounds users rounds

/-- What loads have achieved together; one that fails adds nothing. -/
def Summary.total (results : List (Except AskError Summary)) : Summary :=
  results.foldr (fun result others => (result.toOption.getD .none).add others) .none

/-- A row of a table behind which no other row has its name: of the rows of one name it is the one
that counts. -/
def LastOfName (table : List NamedRow) (r : NamedRow) : Prop :=
  ∃ front back, table = front ++ r :: back ∧ ∀ other ∈ back, other.binding.id ≠ r.binding.id

theorem last_eq_some_iff {table : List NamedRow} {id : RowId} {r : NamedRow} :
    table.reverse.find? (fun r => r.binding.id = id) = some r ↔
      LastOfName table r ∧ r.binding.id = id := by
  rw [find?_reverse_eq_some_iff, and_comm, decide_eq_true_iff]
  refine and_congr_left fun hid => ?_
  simp only [decide_eq_false_iff_not, ← hid]
  rfl

/-- The rows of a list that are to be resolved: those of the table that have a symbol, each with its
instrument. -/
def rowsToResolve (table : List NamedRow) (ids : List RowId) : List (RowId × Identity) :=
  ids.filterMap fun id => (instrument? table id).map (id, ·)

/-- To be resolved are the listed rows that are the last of their name and have a symbol. -/
theorem mem_rowsToResolve_iff {table : List NamedRow} {ids : List RowId} {id : RowId}
    {identity : Identity} :
    (id, identity) ∈ rowsToResolve table ids ↔
      id ∈ ids ∧ ∃ r, LastOfName table r ∧ Text.trim r.identity.symbol ≠ "" ∧
        (id, identity) = (r.binding.id, r.identity) := by
  simp only [rowsToResolve, instrument?, identityOf?, List.mem_filterMap, Option.map_eq_some_iff,
    Option.filter_eq_some_iff, last_eq_some_iff, Prod.mk.injEq]
  constructor
  · rintro ⟨_, hlisted, _, ⟨⟨r, ⟨hlast, rfl⟩, rfl⟩, hsymbol⟩, rfl, rfl⟩
    exact ⟨hlisted, r, hlast, bne_iff_ne.mp hsymbol, rfl, rfl⟩
  · rintro ⟨hlisted, r, hlast, hsymbol, rfl, rfl⟩
    exact ⟨_, hlisted, _, ⟨⟨r, ⟨hlast, rfl⟩, rfl⟩, bne_iff_ne.mpr hsymbol⟩, rfl, rfl⟩

/-- They come in the order in which they are listed. -/
theorem rowsToResolve_sublist (table : List NamedRow) (ids : List RowId) :
    ((rowsToResolve table ids).map Prod.fst).Sublist ids := by
  have hsublist : ((rowsToResolve table ids).map Prod.fst).Sublist (ids.map id) := by
    rw [rowsToResolve, List.map_filterMap]
    apply filterMap_sublist_map
    intro row _ name hname
    cases hinstrument : instrument? table row with
    | none =>
        rw [hinstrument] at hname
        cases hname
    | some identity =>
        rw [hinstrument] at hname
        exact (Option.some.inj hname).symm
  rw [List.map_id] at hsublist
  exact hsublist

/-- Resolve a row by its instrument. -/
def resolveNamed (row : RowId × Identity) : Dialogue Bool := resolveRow row.1 row.2

section Parts

variable {period : Nat} {started : Instant} {allowed : Event → Prop} {past final : Past}
  {talk : List Exchange}

theorem stages_of_loadTables {user : String} {tables : List Table} {summary : Summary}
    (h : Course period started allowed (loadTables user tables) past talk final summary) :
    ∃ stages : List (Stage period started allowed (loadTable user)),
      FallsInto tables past talk final stages ∧
      summary = Summary.total (stages.map Stage.result) := by
  induction tables generalizing past talk final summary with
  | nil =>
      obtain ⟨hsummary, rfl, hfinal⟩ := h.finished_inv
      exact ⟨[], .nil hfinal, hsummary⟩
  | cons table rest ih =>
      obtain ⟨loaded, first, middle, second, rfl, hfirst, hsecond⟩ := Course.bind_inv h
      obtain ⟨others, third, last, fourth, rfl, hthird, hfourth⟩ := Course.bind_inv hsecond
      obtain ⟨hsummary, rfl, hfinal⟩ := Course.finished_inv hfourth
      obtain ⟨stages, hstages, hothers⟩ := ih hthird
      rw [List.append_nil, hsummary, hothers]
      exact ⟨_, (FallsInto.single hfirst).append (hstages.afterwards hfinal), rfl⟩

theorem stages_of_loadUsers {users : List String} {result : Unit}
    (h : Course period started allowed (loadUsers users) past talk final result) :
    ∃ stages : List (Stage period started allowed loadUser),
      FallsInto users past talk final stages := by
  induction users generalizing past talk final with
  | nil =>
      obtain ⟨-, rfl, hfinal⟩ := h.finished_inv
      exact ⟨[], .nil hfinal⟩
  | cons user rest ih =>
      obtain ⟨summary, first, middle, second, rfl, hfirst, hsecond⟩ := Course.bind_inv h
      obtain ⟨stages, hstages⟩ := ih hsecond
      exact ⟨_, (FallsInto.single hfirst).append hstages⟩

theorem stages_of_loadRounds {users : List String} {rounds : Nat} {result : Unit}
    (h : Course period started allowed (loadRounds users rounds) past talk final result) :
    ∃ stages : List (Stage period started allowed loadUser),
      FallsInto (List.replicate rounds users).flatten past talk final stages := by
  induction rounds generalizing past talk final with
  | zero =>
      obtain ⟨-, rfl, hfinal⟩ := h.finished_inv
      exact ⟨[], .nil hfinal⟩
  | succ rounds ih =>
      obtain ⟨_, first, middle, second, rfl, hfirst, hsecond⟩ := Course.bind_inv h
      obtain ⟨stages, hstages⟩ := stages_of_loadUsers hfirst
      obtain ⟨later, hlater⟩ := ih hsecond
      exact ⟨_, hstages.append hlater⟩

theorem stages_of_resolveRows {table : List NamedRow} {ids : List RowId} {count : Nat}
    (h : Course period started allowed (resolveRows table ids) past talk final count) :
    ∃ stages : List (Stage period started allowed resolveNamed),
      FallsInto (rowsToResolve table ids) past talk final stages ∧
      count = (stages.map Stage.result).count true := by
  induction ids generalizing past talk final count with
  | nil =>
      obtain ⟨hcount, rfl, hfinal⟩ := h.finished_inv
      exact ⟨[], .nil hfinal, hcount⟩
  | cons id rest ih =>
      unfold resolveRows at h
      cases hinstrument : (identityOf? table id).filter Identity.hasSymbol with
      | none =>
          rw [hinstrument] at h
          have hitems : rowsToResolve table (id :: rest) = rowsToResolve table rest := by
            rw [rowsToResolve, List.filterMap_cons, instrument?, hinstrument]
            rfl
          rw [hitems]
          exact ih h
      | some identity =>
          rw [hinstrument] at h
          have hitems : rowsToResolve table (id :: rest) =
              [(id, identity)] ++ rowsToResolve table rest := by
            rw [rowsToResolve, List.filterMap_cons, instrument?, hinstrument]
            rfl
          obtain ⟨resolved, first, middle, second, rfl, hfirst, hsecond⟩ := Course.bind_inv h
          obtain ⟨others, third, last, fourth, rfl, hthird, hfourth⟩ := Course.bind_inv hsecond
          obtain ⟨hcount, rfl, hfinal⟩ := Course.finished_inv hfourth
          obtain ⟨stages, hstages, hothers⟩ := ih hthird
          have hnamed : Course period started allowed (resolveNamed (id, identity)) past first
              middle resolved := hfirst
          rw [List.append_nil, hitems]
          refine ⟨_, (FallsInto.single hnamed).append (hstages.afterwards hfinal), ?_⟩
          rw [hcount, hothers, List.singleton_append, List.map_cons, List.count_cons, Nat.add_comm]
          cases resolved <;> rfl

/-! ## No course is stuck -/

/-- Every question has an answer, from the backend as it replies and from an engine that serves. -/
theorem exists_answered (b : Replies) (earlier : List Exchange) (before : Past) (a : Ask) :
    ∃ answer after, Answered period started allowed before a answer after ∧
      b.Gives earlier a answer := by
  cases a with
  | rows user table => exact ⟨_, _, .rows user table _, rfl⟩
  | contract identity => exact ⟨_, _, .contract identity _, rfl⟩
  | replaceRows scope rows => exact ⟨_, _, .replaceRows 0 scope rows, rfl⟩
  | attach row scrip key => exact ⟨_, _, .attach 0 row scrip key, rfl⟩
  | unpriced scope => exact ⟨_, _, .unpriced_now period started allowed before 0 0 scope, rfl⟩
  | prices keys =>
      cases hopen : (stateAfter period started before).connection.isOpen with
      | false =>
          exact ⟨_, _, .prices_of_fetch period started allowed before 0 0 0 keys TextMap.empty
            hopen, rfl⟩
      | true =>
          have hreply : .reply 0 (.prices
              ((stateAfter period started before).cache.resident keys)) ∈
              ((stateAfter period started before).step 0 (.command (.prices 0 keys))).2 := by
            change _ ∈ [(stateAfter period started before).askPrices 0 keys]
            rw [Engine.State.askPrices, hopen]
            exact List.mem_cons_self
          exact ⟨_, _, .prices 0 keys _ _ (.atOnce 0 _ hreply), rfl⟩
  | price key =>
      cases hknown : (stateAfter period started before).cache.get? key with
      | some price =>
          have hreply : .reply 0 (.price (some price)) ∈
              ((stateAfter period started before).step 0 (.command (.price 0 key))).2 := by
            change _ ∈ [(stateAfter period started before).askPrice 0 key]
            rw [Engine.State.askPrice, hknown]
            exact List.mem_cons_self
          exact ⟨_, _, .price 0 key _ _ (.atOnce 0 _ hreply), rfl⟩
      | none =>
          cases hopen : (stateAfter period started before).connection.isOpen with
          | false =>
              exact ⟨_, _, .price_of_fetch period started allowed before 0 0 0 key TextMap.empty
                hopen hknown, rfl⟩
          | true =>
              have hreply : .reply 0 (.price none) ∈
                  ((stateAfter period started before).step 0 (.command (.price 0 key))).2 := by
                change _ ∈ [(stateAfter period started before).askPrice 0 key]
                rw [Engine.State.askPrice, hknown, hopen]
                exact List.mem_cons_self
              exact ⟨_, _, .price 0 key _ _ (.atOnce 0 _ hreply), rfl⟩

/-- Whatever the backend replies, a dialogue can be carried on to its end from any past. -/
theorem exists_course {α : Type} (b : Replies) (d : Dialogue α) (earlier : List Exchange)
    (past : Past) :
    ∃ talk final result, Course period started allowed d past talk final result ∧
      b.Explain earlier talk := by
  induction d generalizing earlier past with
  | finished result => exact ⟨[], past, result, .finished result past, trivial⟩
  | ask a next ih =>
      obtain ⟨answer, after, hanswered, hgives⟩ := exists_answered b earlier past a
      obtain ⟨talk, final, result, hcourse, hexplain⟩ :=
        ih answer (earlier ++ [⟨a, answer, past, after⟩]) after
      exact ⟨_, final, result, .exchange answer hanswered hcourse, hgives, hexplain⟩

end Parts

end QuoteBoard.Dashboard
