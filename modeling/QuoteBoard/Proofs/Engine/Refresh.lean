/-
# What keeps the cells fresh

Whatever has happened, the poll timer of an engine is armed exactly while the stream is not
open, and the status that the engine has published is the status that it has. The timer is
touched only where the connection moves, and then it is put in line with the connection,
whether or not it was in line before. An open stream has therefore no timer that could be
due, and with it goes the last event that could ask the price service for anything.
-/

import QuoteBoard.Health.Pages
import QuoteBoard.Proofs.Engine.Traffic

namespace QuoteBoard.Engine

open QuoteBoard.Feed (Connection)

/-! ## The poll timer and the published status -/

/-- The timer is armed exactly while the stream is not open, and the status is published. -/
structure State.InLine (s : State) : Prop where
  timer : s.nextPoll.isSome = !s.connection.isOpen
  published : s.published = s.status

/-- Two states with the same connection and the same timer. -/
def State.SameTimer (s s' : State) : Prop :=
  s'.connection = s.connection ∧ s'.nextPoll = s.nextPoll

section Parts

variable (s : State) (now : Instant)

/-- To put the timer in line with the connection works from any state. -/
theorem timer_syncTimer :
    (s.syncTimer now).nextPoll.isSome = !(s.syncTimer now).connection.isOpen := by
  unfold State.syncTimer
  cases hconnection : s.connection <;> cases hpoll : s.nextPoll <;>
    simp [Connection.refreshMode, Connection.isOpen, hconnection, hpoll]

theorem sameTimer_merge (found : PriceMap) : s.SameTimer (s.merge found).1 := by
  unfold State.merge
  split
  · exact ⟨rfl, rfl⟩
  · exact ⟨rfl, rfl⟩

theorem sameTimer_onMessage (text : String) : s.SameTimer (s.onMessage text).1 := by
  unfold State.onMessage
  cases Feed.read text with
  | error e => exact ⟨rfl, rfl⟩
  | ok result =>
      obtain ⟨shape, u⟩ := result
      cases u with
      | scrip code price => exact ⟨rfl, rfl⟩
      | prices batch => exact sameTimer_merge s batch

variable {s}

theorem State.InLine.publish_of_sameTimer (h : s.InLine) {s' : State} (hsame : s.SameTimer s') :
    s'.publish.InLine := by
  refine ⟨?_, rfl⟩
  obtain ⟨hconnection, hpoll⟩ := hsame
  have htimer := h.timer
  rw [← hconnection, ← hpoll] at htimer
  exact htimer

theorem inLine_publish_moveTo (c : Connection) : (s.moveTo now c).1.publish.InLine :=
  ⟨timer_syncTimer { s with connection := c } now, rfl⟩

theorem State.InLine.startStream (h : s.InLine) : (s.startStream now).1.publish.InLine := by
  by_cases hnext : s.connection.next .connect = s.connection
  · rw [startStream_of_started s now hnext]
    exact h.publish_of_sameTimer ⟨rfl, rfl⟩
  · rw [startStream_of_down s now hnext]
    exact inLine_publish_moveTo now _

/-- A tick leaves an armed timer armed, and does not change what is published. -/
theorem State.InLine.onPollTick (h : s.InLine) : (s.onPollTick now).1.InLine := by
  have harmed : (s.onPollTick now).1.nextPoll.isSome = s.nextPoll.isSome := Option.isSome_map
  refine ⟨harmed.trans h.timer, ?_⟩
  have hstatus : (s.onPollTick now).1.status = s.status := by
    simp only [State.status, harmed]
    rfl
  exact h.published.trans hstatus.symm

end Parts

/-- Every event leaves the timer and the published status in line. -/
theorem State.InLine.step {s : State} (h : s.InLine) (now : Instant) (e : Event) :
    (s.step now e).1.InLine := by
  cases e with
  | stream e =>
      cases e with
      | opened => exact inLine_publish_moveTo now _
      | message text => exact h.publish_of_sameTimer (sameTimer_onMessage s text)
      | closed reason => exact inLine_publish_moveTo now _
  | fetched asker found => exact h.publish_of_sameTimer (sameTimer_merge s found)
  | command c =>
      cases c with
      | startStream => exact h.startStream now
      | replaceRows | attach | prices | price | unpriced =>
          exact h.publish_of_sameTimer ⟨rfl, rfl⟩
  | pollTick => exact h.onPollTick now

variable (period : Nat) (started : Instant)

theorem inLine_stateAfter (past : Past) : (stateAfter period started past).InLine := by
  induction past with
  | nil => exact ⟨timer_syncTimer (State.initial period) started, rfl⟩
  | cons p earlier ih => exact ih.step p.1 p.2

/-- **One refresh mechanism, truthfully published.** After any past the poll timer is armed exactly
while the stream is not open, the published status is the real one in all its parts, and so the
service is ready. -/
theorem one_refresh_mechanism (past : Past) :
    let s := stateAfter period started past
    (s.nextPoll.isSome = true ↔ s.connection ≠ .opened) ∧
      s.published.connection = s.connection ∧ s.published.polling = s.nextPoll.isSome ∧
      s.published.rows = s.board.size ∧ s.published.cacheEntries = s.cache.size ∧
      s.published.isReady = true ∧
      ∀ metrics display, (Health.View.mk s.published metrics display).respond "GET" "/ready" =
        ⟨200, "READY"⟩ := by
  intro s
  have hinLine : s.InLine := inLine_stateAfter period started past
  have htimer := hinLine.timer
  have hpublished := hinLine.published
  have hready : s.published.isReady = true := by
    rw [hpublished, Status.isReady, State.status, htimer]
    cases s.connection.isOpen <;> rfl
  refine ⟨?_, ?_, ?_, ?_, ?_, hready, ?_⟩
  · rw [htimer]
    cases s.connection <;> simp [Connection.isOpen]
  · rw [hpublished]
    rfl
  · rw [hpublished]
    rfl
  · rw [hpublished]
    rfl
  · rw [hpublished]
    rfl
  · intro metrics display
    have hpath : Health.pathOf "/ready" = "/ready" := by decide +kernel
    rw [Health.View.respond, hpath]
    simp [Health.View.page?, hready]

/-! ## The network -/

/-- No event that an engine handles while its stream is open starts a fetch. -/
theorem fetch?_eq_none_of_isOpen {l : Loop} (hinLine : l.engine.InLine)
    (hopen : l.engine.connection.isOpen = true) {now : Instant} {e : Event} {rest : Inbox}
    (hnext : l.next? now = some (e, rest)) : l.engine.fetch? e = none := by
  cases e with
  | stream e => rfl
  | fetched asker found => rfl
  | command c => cases c <;> simp [State.fetch?, State.answer?, Command.fetch?, hopen]
  | pollTick =>
      -- a tick is handled only if the timer is due, and there is no timer
      have hdue := Loop.pollIsDue_of_next? hnext
      have htimer := hinLine.timer
      rw [hopen, Bool.not_true, Option.isSome_eq_false_iff, Option.isNone_iff_eq_none] at htimer
      simp [State.pollIsDue, htimer] at hdue

/-- **An open stream means no work for the network.** -/
theorem no_fetch_while_open (moves : List Move) :
    let l := (Traffic.after period started moves).loop
    let s := l.engine
    (s.connection.isOpen = true →
      (∀ now e rest, l.next? now = some (e, rest) →
        ∀ asker keys, .startFetch asker keys ∉ (s.step now e).2) ∧
      (∀ now request keys, ∃ found,
        (s.step now (.command (.prices request keys))).2 = [.reply request (.prices found)] ∧
        ∀ k, found.get? k = if k ∈ keys then s.cache.get? k else none) ∧
      ∀ now request key, (s.step now (.command (.price request key))).2 =
        [.reply request (.price (s.cache.get? key))]) ∧
    (s.connection.isOpen = false → ∀ now request keys,
      (s.step now (.command (.prices request keys))).2 = [.startFetch (.prices request) keys]) ∧
    ∀ now request key asker keys,
      .startFetch asker keys ∈ (s.step now (.command (.price request key))).2 ↔
        s.cache.get? key = none ∧ s.connection.isOpen = false ∧
          asker = .price request key ∧ keys = [key] := by
  intro l s
  have hinLine : s.InLine := by
    have hengine : s = _ := Traffic.engine_eq_stateAfter period started ⟨moves, rfl⟩
    rw [hengine]
    exact inLine_stateAfter period started _
  refine ⟨fun hopen => ⟨?_, ?_, ?_⟩, ?_, ?_⟩
  · intro now e rest hnext asker keys hstart
    rw [mem_startFetch_iff, fetch?_eq_none_of_isOpen hinLine hopen hnext] at hstart
    cases hstart
  · intro now request keys
    refine ⟨s.cache.resident keys, ?_, s.cache.get?_resident keys⟩
    change [s.askPrices request keys] = _
    rw [State.askPrices, if_pos hopen]
  · intro now request key
    change [s.askPrice request key] = _
    rw [State.askPrice]
    cases s.cache.get? key with
    | some price => rfl
    | none => simp only [hopen, if_true]
  · intro hclosed now request keys
    change [s.askPrices request keys] = _
    rw [State.askPrices, hclosed]
    rfl
  · intro now request key asker keys
    rw [mem_startFetch_iff, State.fetch?, State.answer?, Command.fetch?]
    cases s.cache.get? key <;> cases s.connection.isOpen <;> simp [eq_comm]

/-- Before the stream is started a request goes to the price service, and once it is open none
does. -/
theorem no_fetch_while_open_opened :
    let before := (Traffic.after 1000 0 []).loop.engine
    let opened :=
      (Traffic.after 1000 0 [.turn 9, .report .opened, .turn 5, .call .startStream]).loop.engine
    (before.connection.isOpen = false ∧ ∀ now request keys,
      (before.step now (.command (.prices request keys))).2 =
        [.startFetch (.prices request) keys]) ∧
    opened.connection.isOpen = true ∧ ∀ now request key,
      (opened.step now (.command (.price request key))).2 =
        [.reply request (.price (opened.cache.get? key))] := by
  intro before opened
  have hbefore : before.connection.isOpen = false := by decide +kernel
  have hopened : opened.connection.isOpen = true := by decide +kernel
  exact ⟨⟨hbefore, (no_fetch_while_open 1000 0 []).2.1 hbefore⟩, hopened,
    ((no_fetch_while_open 1000 0 _).1 hopened).2.2⟩

end QuoteBoard.Engine
