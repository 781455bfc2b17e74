/-
# Scripts of a rehearsal

A script is a list of steps. A step calls on the engine, speaks for a session of the
stream, arranges the surroundings, sends out a client, or lets time pass. After each
step everything happens that can happen without time passing; what the outside has seen
of it is the report of the step.
-/

import QuoteBoard.Rehearsal.Tasks

namespace QuoteBoard.Rehearsal

open QuoteBoard.Backend (Contract)
open QuoteBoard.Dashboard (Ask AskError Dialogue Table TradeRow loadTable loadUser loadUsers)
open QuoteBoard.Engine (Command Status)
open QuoteBoard.Feed (StreamEvent)
open QuoteBoard.Health (Page)

/-- A step of a script. -/
inductive Step where
  /-- Give the engine a command that is not a request. -/
  | command (c : Command)
  /-- Send out a client. -/
  | sendOut (talk : Talk) (period : Option Nat)
  /-- Ask all clients that start anew again and again to leave off. -/
  | stopClients
  /-- Let a session report events; without a number it is the one started last. -/
  | stream (session : Option Nat) (events : List StreamEvent)
  | setPrices (prices : List (Key × Binary64)) (keep : Bool)
  /-- Let the next requests to the price source fail. -/
  | failNext (count : Nat)
  /-- Hold back the answers of the price source. -/
  | hold
  /-- Let some of the requests that are held back finish, or all and hold no more. -/
  | release (count : Option Nat)
  | setRows (user : String) (table : Table) (rows : Except String (List TradeRow))
  | setContract (symbol : String) (contract : Except String (Option Contract))
  | advance (ms : Nat)
  | jump (ms : Nat)
  /-- Ask the engine to stop. -/
  | shutdown
  /-- From now on no command comes from outside. -/
  | leave
  /-- Ask for a page. -/
  | page (method target : String)

/-- What a step is told at once. -/
inductive Reaction where
  /-- The engine has stopped and takes no command. -/
  | stopped
  /-- There is no such session. -/
  | noSession
  /-- The engine has stopped and listens to no session. -/
  | unheard
  | page (p : Page)
  deriving DecidableEq, Repr

/-- What a step leaves. -/
structure Report where
  status : Status
  reaction : Option Reaction
  seen : List Occurrence

/-! ## What clients have to say -/

namespace Talk

/-- Ask a single question. -/
def single (a : Ask) (result : a.Reply → Result) : Talk :=
  .ask a fun answer => .finished (answer.map result)

/-- Ask for prices. -/
def prices (keys : List Key) : Talk := single (.prices keys) fun found => .answer (.prices found)

/-- Ask for a price. -/
def price (key : Key) : Talk := single (.price key) fun found => .answer (.price found)

/-- Ask for the rows without a price. -/
def unpriced (scope : String) : Talk := single (.unpriced scope) fun ids => .answer (.rows ids)

/-- Load a table. -/
def table (user : String) (t : Table) : Talk :=
  (loadTable user t).bind fun loaded => .finished (loaded.map .loaded)

/-- Load the tables of a user. -/
def user (name : String) : Talk := (loadUser name).bind fun s => .finished (.ok (.loaded s))

/-- Load the tables of users. -/
def users (names : List String) : Talk := (loadUsers names).bind fun _ => .finished (.ok .done)

end Talk

namespace Service

/-- Give the engine a command. -/
def give (w : Service) (c : Command) : Service × Option Reaction :=
  match w.send c with
  | (true, w) => (w, none)
  | (false, w) => (w, some .stopped)

/-- Let a session report events. -/
def report (w : Service) (session : Option Nat) (events : List StreamEvent) :
    Service × Option Reaction :=
  let known := match session with
    | some number => number < w.sessions
    | none => 0 < w.sessions
  if !known then (w, some .noSession)
  else if events = [] then (w, none)
  else
    match w.loop.report events with
    | some loop => ({ w with loop }.wake .engine, none)
    | none => (w, some .unheard)

/-- Let requests finish that are held back. -/
def release (w : Service) (count : Option Nat) : Service :=
  let number := count.getD w.held.length
  let finishing := w.held.take number
  let holding := w.surroundings.holding && count.isSome
  finishing.foldl (fun w errand => w.wake (.fetch errand))
    { w with held := w.held.drop number, surroundings := { w.surroundings with holding } }

/-- Send out a client. -/
def sendOut (w : Service) (step : Nat) (talk : Talk) (period : Option Nat) : Service :=
  let client : Client := ⟨step, talk, period, .speaking talk, false⟩
  { w with clients := w.clients ++ [client] }.wake (.client w.clients.length)

/-- Ask clients to leave off; those that rest do so at once, the one that has rested longest
first. -/
def stopClients (w : Service) : Service :=
  w.resting.foldl (fun w number => w.wake (.client number))
    { w with clients := w.clients.map fun c => { c with stopAsked := true } }

/-- What the pages show. -/
def view (w : Service) : Health.View := ⟨w.loop.engine.published, w.panel.metrics, w.panel.display⟩

/-- Carry out a step. -/
def carryOut (w : Service) (number : Nat) : Step → Service × Option Reaction
  | .command c => w.give c
  | .sendOut talk period => (w.sendOut number talk period, none)
  | .stopClients => (w.stopClients, none)
  | .stream session events => w.report session events
  | .setPrices prices keep =>
    ({ w with surroundings := w.surroundings.setPrices prices keep }, none)
  | .failNext count => ({ w with surroundings := { w.surroundings with failures := count } }, none)
  | .hold => ({ w with surroundings := { w.surroundings with holding := true } }, none)
  | .release count => (w.release count, none)
  | .setRows user table rows =>
    ({ w with surroundings := { w.surroundings with
        tables := ((user, table), rows) :: w.surroundings.tables } }, none)
  | .setContract symbol contract =>
    ({ w with surroundings := { w.surroundings with
        contracts := w.surroundings.contracts.insert symbol contract } }, none)
  | .advance ms => (w.advance ms, none)
  | .jump ms => (w.jump ms, none)
  | .shutdown => ({ w with stopAsked := true }.wake .engine, none)
  | .leave => ({ w with attended := false }.wake .engine, none)
  | .page method target => (w, some (.page (w.view.respond method target)))

/-- Carry out a step, and let everything happen that can happen without time passing. -/
def take (w : Service) (number : Nat) (s : Step) : Service × Report :=
  let (w, reaction) := { w with seen := [] }.carryOut number s
  let w := settle patience w
  (w, ⟨w.loop.engine.published, reaction, w.seen⟩)

/-- The engine starts. -/
def start (w : Service) : Service :=
  { w with loop := w.loop.start w.now }.wake .engine

/-- Carry out steps in order. -/
def takeAll (w : Service) : List (Step × Nat) → List Report
  | [] => []
  | (s, number) :: rest =>
    let (w, report) := w.take number s
    report :: w.takeAll rest

end Service

/-- Rehearse a script: the report before the engine starts, and the report of each step. -/
def rehearse (period batchSize : Nat) (script : List Step) : List Report :=
  let w := Service.initial period batchSize
  ⟨w.loop.engine.published, none, []⟩ ::
    (Service.settle Service.patience w.start).takeAll script.zipIdx

end QuoteBoard.Rehearsal
