/-
# Answers and fetches

What an event does about requests and fetches is said by two small functions: the answer
that it brings, and the fetch that it starts. An event is about one request at most, and
it hands that request on exactly once, to an answer or to a fetch. All other effects of
events are on cells, measures and sessions.
-/

import QuoteBoard.Proofs.Engine.Run
import QuoteBoard.Proofs.Lists

namespace QuoteBoard.Engine

open QuoteBoard.Feed (StreamEvent)

/-- The request that an event is about. -/
def Event.request? : Event → Option RequestId
  | .command c => c.request?
  | .fetched asker _ => asker.request?
  | .stream _ | .pollTick => none

/-- The fetch of a command that has no answer at once. -/
def Command.fetch? : Command → Option (Asker × List Key)
  | prices request keys => some (.prices request, keys)
  | price request key => some (.price request key, [key])
  | unpriced .. | startStream | replaceRows .. | attach .. => none

/-- The answer that a complete fetch brings to whoever asked for it. -/
def Asker.answer? (found : PriceMap) : Asker → Option (RequestId × Answer)
  | poll => none
  | prices request => some (request, .prices found)
  | price request key => some (request, .price (found.get? key))

namespace State

variable (s : State)

/-- The answer that a command has at once. -/
def answer? : Command → Option (RequestId × Answer)
  | .prices request keys =>
    if s.connection.isOpen then some (request, .prices (s.cache.resident keys)) else none
  | .price request key =>
    if s.connection.isOpen || (s.cache.get? key).isSome then
      some (request, .price (s.cache.get? key))
    else none
  | .unpriced request scope => some (request, .rows (s.board.unpriced scope))
  | .startStream | .replaceRows .. | .attach .. => none

/-- The answer that an event brings. -/
def reply? : Event → Option (RequestId × Answer)
  | .command c => s.answer? c
  | .fetched asker found => asker.answer? found
  | .stream _ | .pollTick => none

/-- The fetch that an event starts. -/
def fetch? : Event → Option (Asker × List Key)
  | .command c => if (s.answer? c).isSome then none else c.fetch?
  | .pollTick => if s.board.trackedKeys = [] then none else some (.poll, s.board.trackedKeys)
  | .fetched .. | .stream _ => none

end State

/-- Effects that neither answer a request nor start a fetch. -/
def Apart (effects : List Effect) : Prop :=
  ∀ e ∈ effects, e.reply? = none ∧ e.fetch? = none

namespace Apart

variable {effects more : List Effect}

theorem nil : Apart [] := by simp [Apart]

theorem append (h : Apart effects) (hmore : Apart more) : Apart (effects ++ more) := by
  intro e he
  rcases List.mem_append.mp he with he | he
  · exact h e he
  · exact hmore e he

theorem replies (h : Apart effects) : effects.filterMap Effect.reply? = [] :=
  List.filterMap_eq_nil_iff.mpr fun e he => (h e he).1

theorem fetches (h : Apart effects) : effects.filterMap Effect.fetch? = [] :=
  List.filterMap_eq_nil_iff.mpr fun e he => (h e he).2

end Apart

section Parts

variable (s : State) (now : Instant)

theorem apart_flush (writes : List Write) : Apart (flush writes) := by
  intro e he
  obtain ⟨w, -, rfl⟩ | ⟨m, rfl⟩ := mem_flush_cases he
  · exact ⟨rfl, rfl⟩
  · exact ⟨rfl, rfl⟩

theorem apart_measure (m : Measure) : Apart [.measure m] := by
  simp [Apart, Effect.reply?, Effect.fetch?]

theorem apart_merge (found : PriceMap) : Apart (s.merge found).2 := by
  unfold State.merge
  split
  · exact .nil
  · exact (apart_measure _).append (apart_flush _)

theorem apart_onMessage (text : String) : Apart (s.onMessage text).2 := by
  unfold State.onMessage
  cases Feed.read text with
  | error e => exact apart_measure _
  | ok result =>
      obtain ⟨shape, u⟩ := result
      refine (apart_measure _).append ?_
      cases u with
      | scrip code price => exact apart_flush _
      | prices batch => exact apart_merge s batch

theorem apart_startStream : Apart (s.startStream now).2 := by
  by_cases hnext : s.connection.next .connect = s.connection
  · rw [startStream_of_started s now hnext]
    exact .nil
  · rw [startStream_of_down s now hnext]
    refine (apart_measure _).append ?_
    simp [Apart, Effect.reply?, Effect.fetch?]

theorem apart_onStream (e : StreamEvent) : Apart (s.onStream now e).2 := by
  cases e with
  | opened => exact apart_measure _
  | message text => exact apart_onMessage s text
  | closed reason => exact apart_measure _

theorem apart_replaceRows (scope : String) (rows : List Binding) :
    Apart (s.replaceRows scope rows).2 := by
  refine Apart.append ?_ (apart_flush _)
  intro e he
  obtain ⟨id, -, rfl⟩ := List.mem_map.mp he
  exact ⟨rfl, rfl⟩

end Parts

/-- **All that an event does about requests and fetches.** -/
theorem replies_and_fetches_step (s : State) (now : Instant) (e : Event) :
    (s.step now e).2.filterMap Effect.reply? = (s.reply? e).toList ∧
      (s.step now e).2.filterMap Effect.fetch? = (s.fetch? e).toList := by
  cases e with
  | stream e => exact ⟨(apart_onStream s now e).replies, (apart_onStream s now e).fetches⟩
  | fetched asker found =>
      have hmerge := apart_merge s found
      have hstep : (s.step now (.fetched asker found)).2 = (s.merge found).2 ++
          ((s.reply? (.fetched asker found)).map fun r => .reply r.1 r.2).toList := by
        cases asker <;> rfl
      rw [hstep, List.filterMap_append, List.filterMap_append, hmerge.replies, hmerge.fetches]
      cases asker <;> exact ⟨rfl, rfl⟩
  | command c =>
      cases c with
      | startStream => exact ⟨(apart_startStream s now).replies, (apart_startStream s now).fetches⟩
      | replaceRows scope rows =>
          exact ⟨(apart_replaceRows s scope rows).replies, (apart_replaceRows s scope rows).fetches⟩
      | attach row scrip key => exact ⟨(apart_flush _).replies, (apart_flush _).fetches⟩
      | prices request keys =>
          have hstep : (s.step now (.command (.prices request keys))).2 =
            [s.askPrices request keys] := rfl
          rw [hstep, State.askPrices, State.reply?, State.fetch?, State.answer?]
          cases s.connection.isOpen <;> exact ⟨rfl, rfl⟩
      | price request key =>
          have hstep : (s.step now (.command (.price request key))).2 =
            [s.askPrice request key] := rfl
          rw [hstep, State.askPrice, State.reply?, State.fetch?, State.answer?]
          cases s.cache.get? key <;> cases s.connection.isOpen <;> exact ⟨rfl, rfl⟩
      | unpriced request scope => exact ⟨rfl, rfl⟩
  | pollTick =>
      have hstep : (s.step now .pollTick).2 = if s.board.trackedKeys = [] then [] else
        [.startFetch .poll s.board.trackedKeys] := rfl
      rw [hstep, State.reply?, State.fetch?]
      split <;> exact ⟨rfl, rfl⟩

theorem mem_startFetch_iff {s : State} {now : Instant} {e : Event} {asker : Asker}
    {keys : List Key} :
    .startFetch asker keys ∈ (s.step now e).2 ↔ s.fetch? e = some (asker, keys) := by
  rw [← Option.mem_toList, ← (replies_and_fetches_step s now e).2, List.mem_filterMap]
  constructor
  · exact fun h => ⟨_, h, rfl⟩
  · rintro ⟨effect, heffect, hfetch⟩
    cases effect with
    | startFetch asker' keys' =>
        cases hfetch
        exact heffect
    | reply | write | remove | measure | startSession => cases hfetch

/-! ## The request of an event -/

theorem Asker.request?_of_answer? {asker : Asker} {found : PriceMap} {n : RequestId} {a : Answer}
    (h : asker.answer? found = some (n, a)) : asker.request? = some n := by
  cases asker <;> cases h <;> rfl

theorem Command.request?_of_fetch? {c : Command} {asker : Asker} {keys : List Key}
    (h : c.fetch? = some (asker, keys)) : asker.request? = c.request? := by
  cases c <;> cases h <;> rfl

theorem State.request?_of_answer? {s : State} {c : Command} {n : RequestId} {a : Answer}
    (h : s.answer? c = some (n, a)) : c.request? = some n := by
  cases c with
  | prices request keys =>
      rw [State.answer?] at h
      split at h <;> cases h
      rfl
  | price request key =>
      rw [State.answer?] at h
      split at h <;> cases h
      rfl
  | unpriced request scope =>
      cases h
      rfl
  | startStream | replaceRows | attach => cases h

/-- A command without an answer leaves its request to a fetch. -/
theorem State.request?_of_answer?_eq_none {s : State} {c : Command} (h : s.answer? c = none) :
    c.fetch?.bind (·.1.request?) = c.request? := by
  cases c with
  | unpriced request scope => cases h
  | prices | price | startStream | replaceRows | attach => rfl

/-- An event hands its request on exactly once, to an answer or to a fetch. -/
theorem request_handed_on (s : State) (e : Event) :
    (s.reply? e).toList.map Prod.fst ++ (s.fetch? e).toList.filterMap (·.1.request?) =
      e.request?.toList := by
  cases e with
  | stream e => rfl
  | fetched asker found => cases asker <;> rfl
  | command c =>
      rw [State.reply?, State.fetch?, Event.request?]
      cases hanswer : s.answer? c with
      | some answer => rw [State.request?_of_answer? hanswer]; rfl
      | none =>
          rw [← State.request?_of_answer?_eq_none hanswer]
          cases c.fetch? with
          | none => rfl
          | some fetch => exact filterMap_singleton (·.1.request?) fetch
  | pollTick =>
      rw [State.reply?, State.fetch?]
      split <;> rfl

/-- An answer to a request is that of its command or that of a complete fetch. -/
theorem State.reply?_cases {s : State} {e : Event} {n : RequestId} {a : Answer}
    (h : s.reply? e = some (n, a)) :
    (∃ c, e = .command c ∧ s.answer? c = some (n, a)) ∨
      ∃ asker found, e = .fetched asker found ∧ asker.answer? found = some (n, a) := by
  cases e with
  | command c => exact Or.inl ⟨c, rfl, h⟩
  | fetched asker found => exact Or.inr ⟨asker, found, rfl, h⟩
  | stream | pollTick => cases h

/-- A fetch for a request is that of its command. -/
theorem State.fetch?_cases {s : State} {e : Event} {asker : Asker} {keys : List Key}
    {n : RequestId} (h : s.fetch? e = some (asker, keys)) (hasker : asker.request? = some n) :
    ∃ c, e = .command c ∧ s.answer? c = none ∧ c.fetch? = some (asker, keys) := by
  cases e with
  | command c =>
      rw [State.fetch?] at h
      split at h
      · cases h
      · next hnone => exact ⟨c, rfl, Option.not_isSome_iff_eq_none.mp hnone, h⟩
  | pollTick =>
      rw [State.fetch?] at h
      split at h <;> cases h
      cases hasker
  | stream | fetched => cases h

end QuoteBoard.Engine
