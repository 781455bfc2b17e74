/-
# The loop of the price engine

What concerns a running engine waits in an inbox until the engine has handled what came
before it. The engine prefers what the stream reports to complete fetches, these to
commands, and all of them to a tick of its poll timer. Once it has stopped nothing is
handled any more: what is still in the inbox is dropped, and nothing new is taken in.
-/

import QuoteBoard.Engine.Step

namespace QuoteBoard.Engine

open QuoteBoard.Feed (StreamEvent)

/-- What the engine has not yet handled. -/
structure Inbox where
  stream : List StreamEvent
  fetched : List (Asker × PriceMap)
  commands : List Command

namespace Inbox

/-- An inbox with nothing in it. -/
def empty : Inbox := ⟨[], [], []⟩

/-- The number of things in an inbox. -/
def size (i : Inbox) : Nat := i.stream.length + i.fetched.length + i.commands.length

/-- What is handled first, and what is then left. -/
def next? : Inbox → Option (Event × Inbox)
  | ⟨e :: rest, fetched, commands⟩ => some (.stream e, ⟨rest, fetched, commands⟩)
  | ⟨[], (asker, found) :: rest, commands⟩ => some (.fetched asker found, ⟨[], rest, commands⟩)
  | ⟨[], [], c :: rest⟩ => some (.command c, ⟨[], [], rest⟩)
  | ⟨[], [], []⟩ => none

/-- The requests that wait for an answer: those of commands first, then those of fetches. -/
def requests (i : Inbox) : List RequestId :=
  i.commands.filterMap (·.request?) ++ i.fetched.filterMap (·.1.request?)

end Inbox

/-- The poll timer is due. -/
def State.pollIsDue (now : Instant) (s : State) : Bool := s.nextPoll.any (· ≤ now)

/-- The engine with its inbox. -/
structure Loop where
  engine : State
  inbox : Inbox
  running : Bool

namespace Loop

/-- The loop before the engine has started. -/
def initial (period : Nat) : Loop := ⟨.initial period, .empty, false⟩

/-- The engine starts. -/
def start (now : Instant) (l : Loop) : Loop :=
  { l with engine := l.engine.start now, running := true }

/-- Take in what the stream reports, unless the engine has stopped. -/
def report (events : List StreamEvent) (l : Loop) : Option Loop :=
  if l.running then some { l with inbox := { l.inbox with stream := l.inbox.stream ++ events } }
  else none

/-- Take in a complete fetch, unless the engine has stopped. -/
def complete (asker : Asker) (found : PriceMap) (l : Loop) : Option Loop :=
  if l.running then
    some { l with inbox := { l.inbox with fetched := l.inbox.fetched ++ [(asker, found)] } }
  else none

/-- Take in a command, unless the engine has stopped. -/
def send (c : Command) (l : Loop) : Option Loop :=
  if l.running then some { l with inbox := { l.inbox with commands := l.inbox.commands ++ [c] } }
  else none

/-- What a running engine handles next, with what is then left in its inbox. -/
def next? (now : Instant) (l : Loop) : Option (Event × Inbox) :=
  match l.running, l.inbox.next? with
  | false, _ => none
  | true, some next => some next
  | true, none => if l.engine.pollIsDue now then some (.pollTick, .empty) else none

/-- Handle an event, after which `rest` is left in the inbox. -/
def handle (now : Instant) (e : Event) (rest : Inbox) (l : Loop) : Loop × List Effect :=
  let (engine, effects) := l.engine.step now e
  ({ l with engine, inbox := rest }, effects)

/-- The engine stops. The second part lists the requests in its inbox, which are dropped. -/
def stop (l : Loop) : Loop × List RequestId :=
  ({ l with inbox := .empty, running := false }, l.inbox.requests)

end Loop

end QuoteBoard.Engine
