/-
# Requests and fetches in flight

Clients call on the engine and fetches run beside it; both reach the engine only through
its inbox, and it reaches them only through its effects. `Traffic` keeps account of this
exchange: of what was called for, of the fetches that were started, are under way and have
been completed, and of the answers that were given. A run of it is any interleaving of
calls, reports of the stream, completions of fetches, turns of the engine, and its stop.
-/

import QuoteBoard.Dashboard.Dialogue
import QuoteBoard.Engine.Loop

namespace QuoteBoard.Engine

open QuoteBoard.Dashboard (AskError)
open QuoteBoard.Feed (StreamEvent)

/-- The engine, whoever calls on it, and the fetches that run beside it. -/
structure Traffic where
  loop : Loop
  /-- What the engine has handled. -/
  past : Past
  /-- The commands, in the order of the calls. -/
  calls : List Command
  /-- The answers, in the order in which they were given. -/
  replies : List (RequestId × Except AskError Answer)
  /-- The fetches, in the order in which they were started. -/
  started : List (Asker × List Key)
  /-- The fetches that are not yet complete. -/
  underway : List (Asker × List Key)
  /-- What fetches have found, in the order in which the engine has taken it in. -/
  completed : List (Asker × PriceMap)

/-- What may happen next. -/
inductive Move where
  | call (c : Command)
  | report (e : StreamEvent)
  /-- One of the fetches under way is complete. -/
  | finish (position : Nat) (found : PriceMap)
  /-- The engine handles what comes next, if anything does. -/
  | turn (now : Instant)
  | stop

namespace Traffic

variable (period : Nat) (started : Instant) (t : Traffic)

/-- The engine has started, and nothing has happened. -/
def initial : Traffic := ⟨(Loop.initial period).start started, [], [], [], [], [], []⟩

/-- Requests fail. -/
def fail (requests : List RequestId) (e : AskError) : Traffic :=
  { t with replies := t.replies ++ requests.map (·, .error e) }

/-- A client sends a command. The answer to its request goes to that call alone. -/
def call (c : Command) : Traffic :=
  let c := c.named t.calls.length
  let t := { t with calls := t.calls ++ [c] }
  match t.loop.send c with
  | some loop => { t with loop }
  | none => t.fail c.request?.toList .stopped

/-- A session of the stream reports an event. -/
def report (e : StreamEvent) : Traffic :=
  match t.loop.report [e] with
  | some loop => { t with loop }
  | none => t

/-- A fetch is complete. -/
def finish (position : Nat) (found : PriceMap) : Traffic :=
  match t.underway[position]? with
  | none => t
  | some (asker, _) =>
    let t := { t with underway := t.underway.eraseIdx position }
    match t.loop.complete asker found with
    | some loop => { t with loop, completed := t.completed ++ [(asker, found)] }
    | none => t.fail asker.request?.toList .dropped

/-- The engine handles what comes next. -/
def turn (now : Instant) : Traffic :=
  match t.loop.next? now with
  | none => t
  | some (e, rest) =>
    let (loop, effects) := t.loop.handle now e rest
    { t with
      loop
      past := (now, e) :: t.past
      replies := t.replies ++ (effects.filterMap Effect.reply?).map fun r => (r.1, .ok r.2)
      started := t.started ++ effects.filterMap Effect.fetch?
      underway := t.underway ++ effects.filterMap Effect.fetch? }

/-- The engine stops. -/
def stop : Traffic :=
  let (loop, unanswered) := t.loop.stop
  { t with loop }.fail unanswered .dropped

/-- Make a move. -/
def take : Move → Traffic
  | .call c => t.call c
  | .report e => t.report e
  | .finish position found => t.finish position found
  | .turn now => t.turn now
  | .stop => t.stop

/-- What moves have led to, the latest of which comes first. -/
def after : List Move → Traffic
  | [] => initial period started
  | m :: earlier => (after earlier).take m

end Traffic

end QuoteBoard.Engine
