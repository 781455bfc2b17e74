/-
# What moves the connection

Three things move the connection of an engine: a start while the stream is down, and the
reports that the stream has opened or has ended. The poll timer follows the connection:
to open the stream drops it, to leave the open stream creates it, and whatever else happens
it keeps its due time, which only its own tick puts forward. A session of the stream is
started where a start moves the connection, and nowhere else.
-/

import QuoteBoard.Proofs.Engine.Refresh

namespace QuoteBoard.Engine

open QuoteBoard.Feed (Connection StreamEvent)

namespace State

variable (s : State)

/-- The connection after an event. -/
def connectionAfter : Event → Connection
  | .stream .opened => .opened
  | .stream (.closed _) => .disconnected
  | .command .startStream => s.connection.next .connect
  | .stream (.message _) | .fetched .. | .pollTick => s.connection
  | .command (.replaceRows ..) | .command (.attach ..) | .command (.prices ..)
  | .command (.price ..) | .command (.unpriced ..) => s.connection

/-- When the poll timer is due after an event. -/
def dueAfter (now : Instant) : Event → Option Instant
  | .stream .opened => none
  | .stream (.closed _) =>
    if s.connection = .opened then some (now + s.period) else s.nextPoll
  | .pollTick => s.nextPoll.map fun due => nextDue s.period due now
  | .stream (.message _) | .fetched .. | .command _ => s.nextPoll

/-- The event starts a session of the stream. -/
def starts : Event → Bool
  | .command .startStream => s.connection = .disconnected
  | .command (.replaceRows ..) | .command (.attach ..) | .command (.prices ..)
  | .command (.price ..) | .command (.unpriced ..) => false
  | .stream _ | .fetched .. | .pollTick => false

end State

/-- The effect that starts a session. -/
def Effect.isStart : Effect → Bool
  | .startSession => true
  | .write _ | .remove _ | .measure _ | .startFetch .. | .reply .. => false

variable (s : State) (now : Instant)

/-! ## The connection -/

theorem connection_syncTimer : (s.syncTimer now).connection = s.connection := by
  unfold State.syncTimer
  split <;> rfl

theorem connection_moveTo (c : Connection) : (s.moveTo now c).1.connection = c :=
  connection_syncTimer { s with connection := c } now

theorem next_opened (c : Connection) : c.next .opened = .opened := by cases c <;> rfl

theorem next_closed (c : Connection) : c.next .closed = .disconnected := by cases c <;> rfl

theorem connection_startStream :
    (s.startStream now).1.connection = s.connection.next .connect := by
  by_cases hnext : s.connection.next .connect = s.connection
  · rw [startStream_of_started s now hnext]
    exact hnext.symm
  · rw [startStream_of_down s now hnext]
    exact connection_moveTo s now _

/-- **What moves the connection.** -/
theorem connection_step (e : Event) : (s.step now e).1.connection = s.connectionAfter e := by
  cases e with
  | stream e =>
      cases e with
      | opened => exact (connection_moveTo s now _).trans (next_opened s.connection)
      | message text => exact (sameTimer_onMessage s text).1
      | closed reason => exact (connection_moveTo s now _).trans (next_closed s.connection)
  | fetched asker found => exact (sameTimer_merge s found).1
  | command c =>
      cases c with
      | startStream => exact connection_startStream s now
      | replaceRows | attach | prices | price | unpriced => rfl
  | pollTick => rfl

/-! ## The poll timer -/

theorem period_syncTimer : (s.syncTimer now).period = s.period := by
  unfold State.syncTimer
  split <;> rfl

theorem period_merge (found : PriceMap) : (s.merge found).1.period = s.period := by
  unfold State.merge
  split <;> rfl

theorem period_onMessage (text : String) : (s.onMessage text).1.period = s.period := by
  unfold State.onMessage
  cases Feed.read text with
  | error e => rfl
  | ok result =>
      obtain ⟨shape, u⟩ := result
      cases u with
      | scrip code price => rfl
      | prices batch => exact period_merge s batch

theorem period_startStream : (s.startStream now).1.period = s.period := by
  by_cases hnext : s.connection.next .connect = s.connection
  · rw [startStream_of_started s now hnext]
  · rw [startStream_of_down s now hnext]
    exact period_syncTimer _ now

/-- The time between two sweeps is never changed. -/
theorem period_step (e : Event) : (s.step now e).1.period = s.period := by
  cases e with
  | stream e =>
      cases e with
      | opened => exact period_syncTimer _ now
      | message text => exact period_onMessage s text
      | closed reason => exact period_syncTimer _ now
  | fetched asker found => exact period_merge s found
  | command c =>
      cases c with
      | startStream => exact period_startStream s now
      | replaceRows | attach | prices | price | unpriced => rfl
  | pollTick => rfl

theorem period_stateAfter (period : Nat) (started : Instant) (past : Past) :
    (stateAfter period started past).period = period := by
  induction past with
  | nil => exact period_syncTimer (State.initial period) started
  | cons p earlier ih => exact (period_step _ p.1 p.2).trans ih

variable {s}

theorem State.InLine.nextPoll_eq_none_iff (h : s.InLine) :
    s.nextPoll = none ↔ s.connection = .opened := by
  have htimer := h.timer
  cases hpoll : s.nextPoll <;> cases hconnection : s.connection <;>
    simp [hpoll, hconnection, Connection.isOpen] at htimer ⊢

/-- A timer that is in line is touched only where the connection enters or leaves the open
stream. -/
theorem State.InLine.nextPoll_moveTo (h : s.InLine) (c : Connection) :
    (s.moveTo now c).1.nextPoll =
      if c = .opened then none
      else if s.connection = .opened then some (now + s.period) else s.nextPoll := by
  have hnone := h.nextPoll_eq_none_iff
  change (State.syncTimer now { s with connection := c }).nextPoll = _
  unfold State.syncTimer
  cases hpoll : s.nextPoll <;> cases c <;> simp_all [Connection.refreshMode]

theorem State.InLine.nextPoll_startStream (h : s.InLine) :
    (s.startStream now).1.nextPoll = s.nextPoll := by
  by_cases hnext : s.connection.next .connect = s.connection
  · rw [startStream_of_started s now hnext]
  · rw [startStream_of_down s now hnext]
    change (s.moveTo now (s.connection.next .connect)).1.nextPoll = _
    rw [h.nextPoll_moveTo]
    cases hconnection : s.connection <;> simp [Connection.next, hconnection] at hnext ⊢

/-- **What touches the poll timer.** -/
theorem State.InLine.nextPoll_step (h : s.InLine) (e : Event) :
    (s.step now e).1.nextPoll = s.dueAfter now e := by
  cases e with
  | stream e =>
      cases e with
      | opened =>
          refine (h.nextPoll_moveTo now (s.connection.next .opened)).trans ?_
          rw [next_opened]
          rfl
      | message text => exact (sameTimer_onMessage s text).2
      | closed reason =>
          refine (h.nextPoll_moveTo now (s.connection.next .closed)).trans ?_
          rw [next_closed]
          rfl
  | fetched asker found => exact (sameTimer_merge s found).2
  | command c =>
      cases c with
      | startStream => exact h.nextPoll_startStream now
      | replaceRows | attach | prices | price | unpriced => rfl
  | pollTick => rfl

/-! ## The start of a session -/

theorem countP_isStart_flush (writes : List Write) :
    (flush writes).countP Effect.isStart = 0 := by
  rw [List.countP_eq_zero]
  intro e he
  obtain ⟨w, -, rfl⟩ | ⟨m, rfl⟩ := mem_flush_cases he
  · exact Bool.false_ne_true
  · exact Bool.false_ne_true

theorem countP_isStart_merge (s : State) (found : PriceMap) :
    (s.merge found).2.countP Effect.isStart = 0 := by
  unfold State.merge
  split
  · rfl
  · exact countP_isStart_flush _

theorem countP_isStart_onMessage (s : State) (text : String) :
    (s.onMessage text).2.countP Effect.isStart = 0 := by
  unfold State.onMessage
  cases Feed.read text with
  | error e => rfl
  | ok result =>
      obtain ⟨shape, u⟩ := result
      cases u with
      | scrip code price => exact countP_isStart_flush _
      | prices batch => exact countP_isStart_merge s batch

theorem countP_isStart_onFetched (s : State) (asker : Asker) (found : PriceMap) :
    (s.onFetched asker found).2.countP Effect.isStart = 0 := by
  have hmerge := countP_isStart_merge s found
  cases asker <;> simp [State.onFetched, hmerge, Effect.isStart]

theorem countP_isStart_replaceRows (s : State) (scope : String) (rows : List Binding) :
    (s.replaceRows scope rows).2.countP Effect.isStart = 0 := by
  change (_ ++ flush _).countP Effect.isStart = 0
  rw [List.countP_append, countP_isStart_flush, List.countP_map]
  exact List.countP_eq_zero.mpr fun _ _ => Bool.false_ne_true

theorem countP_isStart_startStream (s : State) :
    (s.startStream now).2.countP Effect.isStart =
      (s.starts (.command .startStream)).toNat := by
  by_cases hnext : s.connection.next .connect = s.connection
  · rw [startStream_of_started s now hnext]
    cases hconnection : s.connection <;> simp_all [State.starts, Connection.next]
  · rw [startStream_of_down s now hnext]
    cases hconnection : s.connection <;> simp_all [State.starts, Connection.next]
    rfl

/-- **What starts a session.** An event starts one session at most. -/
theorem countP_isStart_step (s : State) (e : Event) :
    (s.step now e).2.countP Effect.isStart = (s.starts e).toNat := by
  cases e with
  | stream e =>
      cases e with
      | opened => rfl
      | message text => exact countP_isStart_onMessage s text
      | closed reason => rfl
  | fetched asker found => exact countP_isStart_onFetched s asker found
  | command c =>
      cases c with
      | startStream => exact countP_isStart_startStream now s
      | replaceRows scope rows => exact countP_isStart_replaceRows s scope rows
      | attach => exact countP_isStart_flush _
      | prices request keys =>
          change [s.askPrices request keys].countP Effect.isStart = 0
          unfold State.askPrices
          split <;> rfl
      | price request key =>
          change [s.askPrice request key].countP Effect.isStart = 0
          unfold State.askPrice
          split
          · rfl
          · split <;> rfl
      | unpriced => rfl
  | pollTick =>
      change (if s.board.trackedKeys = [] then [] else
        [Effect.startFetch .poll s.board.trackedKeys]).countP Effect.isStart = 0
      split <;> rfl

theorem starts_of_mem_step {s : State} {now : Instant} {e : Event}
    (hstart : .startSession ∈ (s.step now e).2) : s.starts e = true := by
  have hcount : 0 < (s.step now e).2.countP Effect.isStart :=
    List.countP_pos_iff.mpr ⟨_, hstart, rfl⟩
  rw [countP_isStart_step] at hcount
  cases hstarts : s.starts e with
  | true => rfl
  | false => simp [hstarts] at hcount

end QuoteBoard.Engine
