/-
# The price engine: how events are handled

While the stream is open, prices come from it alone: the poll timer is off and requests
are answered from the cache. In every other state the timer is armed, a sweep asks for
every key that some row looks up, and requests go to the price service. A fetch that
completes after the stream has opened is taken in all the same.
-/

import QuoteBoard.Engine.State

namespace QuoteBoard.Engine

open QuoteBoard.Feed (Connection RefreshMode StreamEvent Transition)

/-- The next state, and what else an event does. -/
abbrev Outcome := State × List Effect

/-- Write cells, and count them if there are any. -/
def flush (writes : List Write) : List Effect :=
  if writes = [] then []
  else writes.map .write ++ [.measure (.cellWrites writes.length)]

namespace State

/-- Arm the poll timer where it is needed and drop it where it is not; a timer that is armed
already keeps its due time. -/
def syncTimer (now : Instant) (s : State) : State :=
  match s.connection.refreshMode, s.nextPoll with
  | .polling, none => { s with nextPoll := some (now + s.period) }
  | .streaming, some _ => { s with nextPoll := none }
  | _, _ => s

/-- Move the connection. -/
def moveTo (now : Instant) (c : Connection) (s : State) : Outcome :=
  (syncTimer now { s with connection := c }, [.measure (.streamOpen c.isOpen)])

/-- Take in prices, then show anew the rows that look up one of their keys. -/
def merge (found : PriceMap) (s : State) : Outcome :=
  if found.isEmpty then (s, [])
  else
    let (cache, keys) := s.cache.merge found.entries
    let (board, writes) := s.board.refresh cache keys
    ({ s with cache, board }, .measure (.cacheEntries cache.size) :: flush writes)

/-- Carry out what a message of the feed changes. -/
def update (u : Feed.Update) (s : State) : Outcome :=
  match u with
  | .scrip code price =>
    let (board, writes) := s.board.tick code price
    ({ s with board }, flush writes)
  | .prices batch => s.merge batch

/-- Handle a message of the feed. -/
def onMessage (text : String) (s : State) : Outcome :=
  match Feed.read text with
  | .error _ => (s, [.measure (.feedMessage none)])
  | .ok (shape, u) =>
    let (s, effects) := s.update u
    (s, .measure (.feedMessage (some shape)) :: effects)

/-- Handle what a session of the stream reports. -/
def onStream (now : Instant) (e : StreamEvent) (s : State) : Outcome :=
  let (s, effects) := match e with
    | .opened => s.moveTo now (s.connection.next .opened)
    | .message text => s.onMessage text
    | .closed _ => s.moveTo now (s.connection.next .closed)
  (s.publish, effects)

/-- Handle a complete fetch: take in its prices, then answer who asked. -/
def onFetched (asker : Asker) (found : PriceMap) (s : State) : Outcome :=
  let (s, effects) := s.merge found
  let replies := match asker with
    | .poll => []
    | .prices request => [.reply request (.prices found)]
    | .price request key => [.reply request (.price (found.get? key))]
  (s.publish, effects ++ replies)

/-- Start the stream, unless it is connecting or open. -/
def startStream (now : Instant) (s : State) : Outcome :=
  let next := s.connection.next .connect
  if next = s.connection then (s, [])
  else
    let (s, effects) := s.moveTo now next
    (s, effects ++ [.startSession])

/-- Replace the rows of a scope: rows that left are removed before others are written. -/
def replaceRows (scope : String) (rows : List Binding) (s : State) : Outcome :=
  let r := s.board.replaceScope scope rows s.cache
  ({ s with board := r.board }, r.removed.map .remove ++ flush r.writes)

/-- Add a resolved contract to a row. -/
def attach (row : RowId) (scrip : Option String) (key : Key) (s : State) : Outcome :=
  let (board, write) := s.board.attach row scrip key s.cache
  ({ s with board }, flush write.toList)

/-- What a request for the prices of keys does: an open stream answers from the cache. -/
def askPrices (request : RequestId) (keys : List Key) (s : State) : Effect :=
  if s.connection.isOpen then .reply request (.prices (s.cache.resident keys))
  else .startFetch (.prices request) keys

/-- What a request for one price does: the cache answers if it can, and while the stream is open
there is no other answer. -/
def askPrice (request : RequestId) (key : Key) (s : State) : Effect :=
  match s.cache.get? key with
  | some price => .reply request (.price (some price))
  | none =>
    if s.connection.isOpen then .reply request (.price none)
    else .startFetch (.price request key) [key]

/-- Handle a command. -/
def onCommand (now : Instant) (c : Command) (s : State) : Outcome :=
  let (s, effects) := match c with
    | .startStream => s.startStream now
    | .replaceRows scope rows => s.replaceRows scope rows
    | .attach row scrip key => s.attach row scrip key
    | .prices request keys => (s, [s.askPrices request keys])
    | .price request key => (s, [s.askPrice request key])
    | .unpriced request scope => (s, [.reply request (.rows (s.board.unpriced scope))])
  (s.publish, effects)

end State

/-- How late a tick may be handled and still count as on time, in milliseconds. -/
def tolerance : Nat := 5

/-- When the poll timer is due after a tick that was due at `due` is handled at `now`. A tick that
came too late is not made up for. -/
def nextDue (period : Nat) (due now : Instant) : Instant :=
  if due + tolerance < now then now + period else due + period

namespace State

/-- Handle a tick of the poll timer: ask for every key that some row looks up. -/
def onPollTick (now : Instant) (s : State) : Outcome :=
  let keys := s.board.trackedKeys
  ({ s with nextPoll := s.nextPoll.map fun due => nextDue s.period due now },
    if keys = [] then [] else [.startFetch .poll keys])

/-- Start the engine: arm the poll timer and publish the status. -/
def start (now : Instant) (s : State) : State := (s.syncTimer now).publish

/-- Handle an event. -/
def step (now : Instant) (e : Event) (s : State) : Outcome :=
  match e with
  | .stream e => s.onStream now e
  | .fetched asker found => s.onFetched asker found
  | .command c => s.onCommand now c
  | .pollTick => s.onPollTick now

end State

end QuoteBoard.Engine
