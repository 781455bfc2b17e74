/-
# Runs of the engine

The past of an engine lists the events that it has handled, the latest first, so the
state after a past and its effects are read off by recursion. Of the many events only
some concern prices and rows, and each of those carries out one operation on them.
Seen through its prices and rows a run of the engine is therefore a log of operations,
and whatever holds after every log holds of the engine.
-/

import QuoteBoard.Engine.Step
import QuoteBoard.Proofs.Board.Desk

namespace QuoteBoard.Engine

/-- The engine after its past. -/
def stateAfter (period : Nat) (started : Instant) : Past → State
  | [] => (State.initial period).start started
  | (now, e) :: earlier => ((stateAfter period started earlier).step now e).1

/-- All effects of a past, in the order in which they have happened. -/
def effectsAfter (period : Nat) (started : Instant) : Past → List Effect
  | [] => []
  | (now, e) :: earlier =>
    effectsAfter period started earlier ++ ((stateAfter period started earlier).step now e).2

/-- The operation that an update of the feed stands for. -/
def updateOperation : Feed.Update → Operation
  | .scrip code price => .tick code price
  | .prices batch => .merge batch.entries

/-- The operation on prices and rows that an event carries out, if it concerns them. -/
def Event.operation? : Event → Option Operation
  | .stream (.message text) =>
    match Feed.read text with
    | .error _ => none
    | .ok (_, u) => some (updateOperation u)
  | .stream .opened | .stream (.closed _) => none
  | .fetched _ found => some (.merge found.entries)
  | .command (.replaceRows scope rows) => some (.replaceScope scope rows)
  | .command (.attach row scrip key) => some (.attach row scrip key)
  | .command .startStream | .command (.prices ..) | .command (.price ..)
  | .command (.unpriced ..) => none
  | .pollTick => none

/-- The operations that a past has carried out, the latest first. -/
def operations (past : Past) : List Operation := past.filterMap fun p => p.2.operation?

/-- The prices and the rows of an engine. -/
def State.desk (s : State) : Desk := ⟨s.cache, s.board⟩

/-- An effect that removes or writes a cell. -/
def Effect.isOnCells : Effect → Bool
  | .write _ | .remove _ => true
  | .measure _ | .startSession | .startFetch .. | .reply .. => false

/-- What an operation that need not be there leaves. -/
def performed (d : Desk) : Option Operation → Performed
  | none => ⟨d, [], []⟩
  | some op => d.perform op

/-- The effects that put an operation into the cells. -/
def cellEffects (p : Performed) : List Effect := p.removed.map .remove ++ p.writes.map .write

/-- The engine carries out an operation: prices and rows become what it leaves, and the effects on
cells are its removals and writes in order. -/
structure Carries (o : Outcome) (p : Performed) : Prop where
  desk : o.1.desk = p.desk
  cells : o.2.filter Effect.isOnCells = cellEffects p

namespace Carries

variable {s : State} {effects more : List Effect} {p : Performed}

/-- To publish the status is no operation. -/
theorem publish (h : Carries (s, effects) p) : Carries (s.publish, effects) p :=
  ⟨h.desk, h.cells⟩

/-- Other effects may follow. -/
theorem append (h : Carries (s, effects) p) (hmore : more.filter Effect.isOnCells = []) :
    Carries (s, effects ++ more) p := by
  refine ⟨h.desk, ?_⟩
  have hcells := h.cells
  rw [List.filter_append, hmore, List.append_nil]
  exact hcells

/-- A measure may come first. -/
theorem measure (h : Carries (s, effects) p) (m : Measure) :
    Carries (s, .measure m :: effects) p :=
  ⟨h.desk, h.cells⟩

end Carries

section Parts

variable (s : State) (now : Instant)

theorem mem_flush_cases {writes : List Write} {e : Effect} (he : e ∈ flush writes) :
    (∃ w ∈ writes, e = .write w) ∨ ∃ m, e = .measure m := by
  unfold flush at he
  split at he
  · cases he
  · rcases List.mem_append.mp he with he | he
    · obtain ⟨w, hw, rfl⟩ := List.mem_map.mp he
      exact Or.inl ⟨w, hw, rfl⟩
    · exact Or.inr ⟨_, List.mem_singleton.mp he⟩

theorem filter_flush (writes : List Write) :
    (flush writes).filter Effect.isOnCells = writes.map .write := by
  unfold flush
  split
  · next hempty => rw [hempty]; rfl
  · have hwrites : (writes.map Effect.write).filter Effect.isOnCells = writes.map .write := by
      rw [List.filter_eq_self]
      intro e he
      obtain ⟨w, -, rfl⟩ := List.mem_map.mp he
      rfl
    rw [List.filter_append, hwrites]
    exact List.append_nil _

theorem desk_syncTimer : (s.syncTimer now).desk = s.desk := by
  unfold State.syncTimer
  split <;> rfl

theorem carries_moveTo (c : Feed.Connection) : Carries (s.moveTo now c) ⟨s.desk, [], []⟩ :=
  ⟨desk_syncTimer _ now, rfl⟩

/-- A start is ignored unless the stream is down. -/
theorem startStream_of_started (hnext : s.connection.next .connect = s.connection) :
    s.startStream now = (s, []) := if_pos hnext

theorem startStream_of_down (hnext : s.connection.next .connect ≠ s.connection) :
    s.startStream now =
      ((s.moveTo now (s.connection.next .connect)).1,
        (s.moveTo now (s.connection.next .connect)).2 ++ [.startSession]) := if_neg hnext

theorem carries_startStream : Carries (s.startStream now) ⟨s.desk, [], []⟩ := by
  by_cases hnext : s.connection.next .connect = s.connection
  · rw [startStream_of_started s now hnext]
    exact ⟨rfl, rfl⟩
  · rw [startStream_of_down s now hnext]
    exact (carries_moveTo s now _).append rfl

/-- A batch without prices changes nothing and writes nothing. -/
theorem perform_merge_nil (d : Desk) : d.perform (.merge []) = ⟨d, [], []⟩ := by
  have hunreferenced (r : Row) : ¬ r.references [] = true := by simp [Row.references]
  have hrows : d.board.rows.map (fun r => r) = d.board.rows := by
    apply TextMap.ext_get?
    intro id
    rw [TextMap.get?_map, Option.map_id']
  have hrefresh : d.board.refresh d.cache [] = (d.board, []) := by
    unfold Board.refresh Board.change
    simp [if_neg (hunreferenced _), hrows]
  change (⟨⟨d.cache, (d.board.refresh d.cache []).1⟩, [], (d.board.refresh d.cache []).2⟩ :
    Performed) = _
  rw [hrefresh]

theorem carries_merge (found : PriceMap) :
    Carries (s.merge found) (s.desk.perform (.merge found.entries)) := by
  unfold State.merge
  split
  · next hempty =>
      have hentries : found.entries = [] := List.isEmpty_iff.mp hempty
      rw [hentries, perform_merge_nil]
      exact ⟨rfl, rfl⟩
  · exact ⟨rfl, filter_flush _⟩

theorem carries_update (u : Feed.Update) :
    Carries (s.update u) (s.desk.perform (updateOperation u)) := by
  cases u with
  | scrip code price => exact ⟨rfl, filter_flush _⟩
  | prices batch => exact carries_merge s batch

theorem carries_onMessage (text : String) :
    Carries (s.onMessage text) (performed s.desk (Event.stream (.message text)).operation?) := by
  cases hread : Feed.read text with
  | error e =>
      simp only [State.onMessage, Event.operation?, hread]
      exact ⟨rfl, rfl⟩
  | ok result =>
      obtain ⟨shape, u⟩ := result
      simp only [State.onMessage, Event.operation?, hread]
      exact (carries_update s u).measure _

theorem carries_onStream (e : Feed.StreamEvent) :
    Carries (s.onStream now e) (performed s.desk (Event.stream e).operation?) := by
  cases e with
  | opened => exact (carries_moveTo s now _).publish
  | message text => exact (carries_onMessage s text).publish
  | closed reason => exact (carries_moveTo s now _).publish

theorem carries_onFetched (asker : Asker) (found : PriceMap) :
    Carries (s.onFetched asker found) (s.desk.perform (.merge found.entries)) := by
  have hmerge := (carries_merge s found).publish
  cases asker with
  | poll => exact hmerge.append rfl
  | prices request => exact hmerge.append rfl
  | price request key => exact hmerge.append rfl

theorem carries_replaceRows (scope : String) (rows : List Binding) :
    Carries (s.replaceRows scope rows) (s.desk.perform (.replaceScope scope rows)) := by
  refine ⟨rfl, ?_⟩
  have hremoved (ids : List RowId) :
      (ids.map Effect.remove).filter Effect.isOnCells = ids.map .remove := by
    rw [List.filter_eq_self]
    intro e he
    obtain ⟨id, -, rfl⟩ := List.mem_map.mp he
    rfl
  refine (List.filter_append ..).trans ?_
  rw [hremoved, filter_flush]
  rfl

theorem carries_onCommand (c : Command) :
    Carries (s.onCommand now c) (performed s.desk (Event.command c).operation?) := by
  cases c with
  | startStream => exact (carries_startStream s now).publish
  | replaceRows scope rows => exact (carries_replaceRows s scope rows).publish
  | attach row scrip key => exact ⟨rfl, filter_flush _⟩
  | prices request keys =>
      refine ⟨rfl, ?_⟩
      change [s.askPrices request keys].filter Effect.isOnCells = []
      unfold State.askPrices
      split <;> rfl
  | price request key =>
      refine ⟨rfl, ?_⟩
      change [s.askPrice request key].filter Effect.isOnCells = []
      unfold State.askPrice
      split
      · rfl
      · split <;> rfl
  | unpriced request scope => exact ⟨rfl, rfl⟩

end Parts

/-- **What an event does to prices, rows and cells** is one operation, or nothing. -/
theorem carries_step (s : State) (now : Instant) (e : Event) :
    Carries (s.step now e) (performed s.desk e.operation?) := by
  cases e with
  | stream e => exact carries_onStream s now e
  | fetched asker found => exact carries_onFetched s asker found
  | command c => exact carries_onCommand s now c
  | pollTick =>
      refine ⟨rfl, ?_⟩
      change (if s.board.trackedKeys = [] then [] else
        [Effect.startFetch .poll s.board.trackedKeys]).filter Effect.isOnCells = []
      split <;> rfl

section Runs

variable (period : Nat) (started : Instant)

theorem operations_cons (now : Instant) (e : Event) (earlier : Past) :
    operations ((now, e) :: earlier) = e.operation?.toList ++ operations earlier := by
  unfold operations
  cases hop : e.operation? <;> simp [hop]

theorem desk_stateAfter_cons (now : Instant) (e : Event) (earlier : Past) :
    (stateAfter period started ((now, e) :: earlier)).desk =
      (performed (stateAfter period started earlier).desk e.operation?).desk :=
  (carries_step _ now e).desk

/-- **A run is a log.** The prices and rows of an engine are those that the operations of its past
have left. -/
theorem desk_stateAfter (past : Past) :
    (stateAfter period started past).desk = Desk.after (operations past) := by
  induction past with
  | nil => exact desk_syncTimer (State.initial period) started
  | cons p earlier ih =>
      obtain ⟨now, e⟩ := p
      rw [desk_stateAfter_cons, operations_cons, ih]
      cases e.operation? with
      | none => rfl
      | some op => rfl

theorem board_stateAfter (past : Past) :
    (stateAfter period started past).board = (Desk.after (operations past)).board :=
  congrArg Desk.board (desk_stateAfter period started past)

theorem cache_stateAfter (past : Past) :
    (stateAfter period started past).cache = (Desk.after (operations past)).cache :=
  congrArg Desk.cache (desk_stateAfter period started past)

end Runs

end QuoteBoard.Engine
