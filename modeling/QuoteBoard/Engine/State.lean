/-
# The price engine: state, events, effects

One engine owns the cache, the board, the state of the feed connection and the poll
timer. Whatever changes them arrives as an event, and each event is handled to its end
before the next. The engine does nothing by itself to the world outside: it answers an
event with its next state and with the effects that the event has, in order.
-/

import QuoteBoard.Board.Basic
import QuoteBoard.Feed.Connection
import QuoteBoard.Feed.Session
import QuoteBoard.Feed.Update

namespace QuoteBoard.Engine

open QuoteBoard.Feed (Connection RefreshMode Shape StreamEvent)

/-- A point in time, in milliseconds. -/
abbrev Instant := Nat

/-- The name of a request that waits for an answer. -/
abbrev RequestId := Nat

/-- What the rest of the service asks of the engine. -/
inductive Command where
  /-- Start the stream, unless it is connecting or open. -/
  | startStream
  /-- Replace the rows whose names start with `scope`. -/
  | replaceRows (scope : String) (rows : List Binding)
  /-- Add a resolved contract to a row. -/
  | attach (row : RowId) (scrip : Option String) (key : Key)
  /-- Prices of several keys. -/
  | prices (request : RequestId) (keys : List Key)
  /-- The price of one key. -/
  | price (request : RequestId) (key : Key)
  /-- The rows under a scope that show no price. -/
  | unpriced (request : RequestId) (scope : String)

/-- The request that waits for the answer to a command. -/
def Command.request? : Command → Option RequestId
  | prices request _ | price request _ | unpriced request _ => some request
  | startStream | replaceRows .. | attach .. => none

/-- The command with a name of its own for its request. -/
def Command.named (request : RequestId) : Command → Command
  | prices _ keys => prices request keys
  | price _ key => price request key
  | unpriced _ scope => unpriced request scope
  | c => c

/-- Who waits for a fetch. -/
inductive Asker where
  /-- A sweep of the poll timer; nobody waits. -/
  | poll
  | prices (request : RequestId)
  | price (request : RequestId) (key : Key)
  deriving DecidableEq

/-- The request that waits for a fetch. -/
def Asker.request? : Asker → Option RequestId
  | poll => none
  | prices request | price request _ => some request

/-- The answer to a request. -/
inductive Answer where
  | prices (found : PriceMap)
  | price (found : Option Binary64)
  | rows (ids : List RowId)
  deriving DecidableEq

/-- What the engine handles. -/
inductive Event where
  | stream (e : StreamEvent)
  /-- A fetch is complete. -/
  | fetched (asker : Asker) (found : PriceMap)
  | command (c : Command)
  /-- The poll timer is due. -/
  | pollTick

/-- The events that an engine has handled, the latest first, each with the time it was handled. -/
abbrev Past := List (Instant × Event)

/-- What is counted and gauged. -/
inductive Measure where
  /-- A message of a shape, or one that was dropped. -/
  | feedMessage (shape : Option Shape)
  /-- A finished request to the price service. -/
  | priceRequest (ok : Bool)
  | cellWrites (count : Nat)
  | cacheEntries (count : Nat)
  | streamOpen (isOpen : Bool)
  deriving DecidableEq

/-- What an event does outside the engine. -/
inductive Effect where
  | write (w : Write)
  | remove (row : RowId)
  | measure (m : Measure)
  | startSession
  | startFetch (asker : Asker) (keys : List Key)
  | reply (request : RequestId) (answer : Answer)
  deriving DecidableEq

/-- The answer that an effect gives. -/
def Effect.reply? : Effect → Option (RequestId × Answer)
  | .reply request answer => some (request, answer)
  | .startFetch .. | .write _ | .remove _ | .measure _ | .startSession => none

/-- The fetch that an effect starts. -/
def Effect.fetch? : Effect → Option (Asker × List Key)
  | .startFetch asker keys => some (asker, keys)
  | .reply .. | .write _ | .remove _ | .measure _ | .startSession => none

/-- The engine seen from outside. -/
structure Status where
  connection : Connection
  /-- The poll timer is armed. -/
  polling : Bool
  rows : Nat
  cacheEntries : Nat
  deriving DecidableEq

namespace Status

/-- The status before the engine has started. -/
def initial : Status := ⟨.disconnected, false, 0, 0⟩

/-- Something keeps the cells fresh: the open stream or the poll timer. -/
def isReady (s : Status) : Bool := s.connection.isOpen || s.polling

/-- What keeps the cells fresh in this state of the connection. -/
def refreshMode (s : Status) : RefreshMode := s.connection.refreshMode

end Status

/-- What the engine owns. -/
structure State where
  cache : Cache
  board : Board
  connection : Connection
  /-- When the poll timer is due; it is armed only while the stream is not open. -/
  nextPoll : Option Instant
  /-- The time between two sweeps of the poll timer. -/
  period : Nat
  /-- The status published last. -/
  published : Status
  deriving DecidableEq

namespace State

/-- The engine before it has started. -/
def initial (period : Nat) : State :=
  ⟨Cache.empty, Board.empty, .disconnected, none, period, .initial⟩

/-- The status of the engine. -/
def status (s : State) : Status := ⟨s.connection, s.nextPoll.isSome, s.board.size, s.cache.size⟩

/-- Publish the status. -/
def publish (s : State) : State := { s with published := s.status }

end State

end QuoteBoard.Engine
