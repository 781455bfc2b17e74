/-
# The service in rehearsal

The engine, the fetches under way, the clients that talk to the engine and the sessions
of the stream, together with a clock. One task runs at a time, and a task that has been
given something to do runs when those before it have run. Nothing else decides what
happens, so a rehearsal of the same steps always takes the same course. What the
outside can see of it is recorded.
-/

import QuoteBoard.Dashboard.Loader
import QuoteBoard.Engine.Loop
import QuoteBoard.Fallback.Fetch
import QuoteBoard.Health.Pages
import QuoteBoard.Health.Panel
import QuoteBoard.Rehearsal.Surroundings

namespace QuoteBoard.Rehearsal

open QuoteBoard.Dashboard (Ask AskError Dialogue Summary Table)
open QuoteBoard.Engine (Answer Asker Command Effect Instant Loop Measure RequestId)

/-- What is run in turn. -/
inductive Task where
  | engine
  /-- A session of the stream that starts. -/
  | session
  | fetch (number : Nat)
  | client (number : Nat)
  deriving DecidableEq, Repr

/-- What a client of the engine is told in the end. -/
inductive Result where
  | answer (a : Answer)
  | loaded (s : Summary)
  | done

/-- What a client has to say in the end, unless it fails. -/
abbrev Talk := Dialogue (Except AskError Result)

/-- What the outside sees. -/
inductive Occurrence where
  | write (w : Write)
  | remove (row : RowId)
  | measure (m : Measure)
  /-- A request has reached the price source. -/
  | request (keys : List Key)
  /-- A session has started. -/
  | session (number : Nat)
  /-- The rows of a table are asked for. -/
  | load (user : String) (table : Table)
  /-- The contract of an instrument is asked for. -/
  | resolve (identity : Identity)
  /-- The client that was sent out in a step is done. -/
  | reply (step : Nat) (result : Except AskError Result)
  /-- The engine has stopped. -/
  | ended

/-- What a client is about. -/
inductive Pursuit where
  /-- It has something to say. -/
  | speaking (talk : Talk)
  /-- It has asked the engine and waits for the answer to its request. -/
  | waiting (request : RequestId) (next : Except AskError Answer → Talk)
  /-- It rests until it starts anew. -/
  | resting (wake : Instant)
  | gone

/-- A client of the engine. -/
structure Client where
  /-- The step that sent it out. -/
  step : Nat
  /-- All it has to say. -/
  talk : Talk
  /-- How long it rests before it starts anew, if it does. -/
  period : Option Nat
  pursuit : Pursuit
  stopAsked : Bool

/-- The request whose answer a client waits for. -/
def Client.awaits? (c : Client) : Option RequestId :=
  match c.pursuit with
  | .waiting request _ => some request
  | .speaking _ | .resting _ | .gone => none

/-- A client that waits goes on with its answer. -/
def Client.hear (answer : Except AskError Answer) (c : Client) : Client :=
  match c.pursuit with
  | .waiting _ next => { c with pursuit := .speaking (next answer) }
  | .speaking _ | .resting _ | .gone => c

/-- A fetch under way: who asked, how far it has come, and the answer to the request that is held
back. -/
structure Errand where
  asker : Asker
  fetch : Fallback.Fetch
  held : Option (Option PriceMap)

/-- A timer. -/
structure Alarm where
  due : Instant
  task : Task

/-- The whole service, as far as it takes part in a rehearsal. -/
structure Service where
  now : Instant
  /-- The engine and what it has not yet handled. -/
  loop : Loop
  /-- The engine has been asked to stop. -/
  stopAsked : Bool
  /-- Commands can still come from outside. -/
  attended : Bool
  batchSize : Nat
  surroundings : Surroundings
  /-- Number of sessions started. -/
  sessions : Nat
  /-- The fetches in the order in which they were started; of a complete one nothing is kept. -/
  errands : List (Option Errand)
  /-- Errands whose requests are held back, the oldest request first. -/
  held : List Nat
  /-- Number of commands sent to the engine. -/
  calls : Nat
  clients : List Client
  /-- Clients that rest, the one that has rested longest first. -/
  resting : List Nat
  /-- Tasks that have something to do, in the order in which they run. -/
  ready : List Task
  /-- Timers in the order in which they fire. -/
  alarms : List Alarm
  panel : Health.Panel
  /-- What the outside has seen since the last step. -/
  seen : List Occurrence

namespace Service

/-- The service before the engine starts. -/
def initial (period batchSize : Nat) : Service :=
  { now := 0
    loop := .initial period
    stopAsked := false
    attended := true
    batchSize
    surroundings := .bare
    sessions := 0
    errands := []
    held := []
    calls := 0
    clients := []
    resting := []
    ready := []
    alarms := []
    panel := .blank
    seen := [] }

/-- Record what the outside sees. -/
def see (w : Service) (o : Occurrence) : Service := { w with seen := w.seen ++ [o] }

/-- Count a request to the price service that is finished, for the outside to see. -/
def countRequest (w : Service) (answer : Option PriceMap) : Service :=
  { w with panel := w.panel.finishRequest answer }.see (.measure (.priceRequest answer.isSome))

/-- Give a task something to do. A task is in the queue at most once. -/
def wake (w : Service) (t : Task) : Service :=
  if w.ready.contains t then w else { w with ready := w.ready ++ [t] }

/-- Set a timer; of two that are due at the same time the one set first fires first. -/
def setAlarm (w : Service) (a : Alarm) : Service :=
  { w with alarms :=
      w.alarms.takeWhile (·.due ≤ a.due) ++ a :: w.alarms.dropWhile (·.due ≤ a.due) }

/-- Change a client. -/
def modifyClient (w : Service) (number : Nat) (f : Client → Client) : Service :=
  { w with clients := w.clients.modify number f }

/-- Give the client that waits for a request its answer. -/
def deliver (w : Service) (request : RequestId) (answer : Except AskError Answer) : Service :=
  match w.clients.findIdx? fun c => c.awaits? = some request with
  | none => w
  | some number => (w.modifyClient number (Client.hear answer)).wake (.client number)

/-- Put a command into the inbox of the engine, with a name of its own for its request. The result
is whether the engine is still running. -/
def send (w : Service) (c : Command) : Bool × Service :=
  let c := c.named w.calls
  let w := { w with calls := w.calls + 1 }
  match w.loop.send c with
  | some loop => (true, { w with loop }.wake .engine)
  | none => (false, w)

/-- Somebody can still send commands. -/
def hasHandle (w : Service) : Bool :=
  w.attended || w.clients.any fun c =>
    match c.pursuit with
    | .gone => false
    | _ => true

end Service

end QuoteBoard.Rehearsal
