/-
# Tasks of a rehearsal

Each task runs until it has nothing left to do. The engine handles, in this order of
preference, the signal to stop, what the stream reports, complete fetches, commands,
and the tick of the poll timer; it also stops when nobody is left who could send a
command. A request that the engine leaves unanswered when it stops fails.
-/

import QuoteBoard.Rehearsal.Service

namespace QuoteBoard.Rehearsal

open QuoteBoard.Dashboard (AskError Dialogue)
open QuoteBoard.Engine (Answer Asker Effect RequestId)

namespace Service

/-! ## The engine -/

/-- Carry out an effect of the engine. -/
def perform (w : Service) (e : Effect) : Service :=
  let w := { w with panel := w.panel.follow e }
  match e with
  | .write write => w.see (.write write)
  | .remove row => w.see (.remove row)
  | .measure m => w.see (.measure m)
  | .startSession => w.wake .session
  | .startFetch asker keys =>
    let errand : Errand := ⟨asker, .start w.batchSize keys, none⟩
    { w with errands := w.errands ++ [some errand] }.wake (.fetch w.errands.length)
  | .reply request answer => w.deliver request (.ok answer)

/-- A request that waits for an answer does so in vain. -/
def dropRequest (w : Service) (request : RequestId) : Service := w.deliver request (.error .dropped)

/-- The engine stops, and nothing in its inbox is handled. -/
def stop (w : Service) : Service :=
  let (loop, unanswered) := w.loop.stop
  let w := { w with loop, alarms := w.alarms.filter (·.task ≠ Task.engine) }
  unanswered.foldl dropRequest (w.see .ended)

/-- The engine has nothing to do until its poll timer is due. -/
def setPollAlarm (w : Service) : Service :=
  let others := w.alarms.filter (·.task ≠ Task.engine)
  match w.loop.engine.nextPoll with
  | none => { w with alarms := others }
  | some due =>
    if w.alarms.any fun a => a.task = Task.engine ∧ a.due = due then w
    else { w with alarms := others }.setAlarm ⟨due, .engine⟩

/-- The engine runs. -/
def runEngine : Nat → Service → Service
  | 0, w => w
  | fuel + 1, w =>
    if !w.loop.running then w
    else if w.stopAsked || w.loop.inbox.size == 0 && !w.hasHandle then w.stop
    else
      match w.loop.next? w.now with
      | some (e, rest) =>
        let (loop, effects) := w.loop.handle w.now e rest
        runEngine fuel (effects.foldl perform { w with loop })
      | none => w.setPollAlarm

/-- Turns that the engine may take at a time: one for each thing in its inbox, and as many as
there can be ticks on time at one instant. -/
def turns (w : Service) : Nat := w.loop.inbox.size + Engine.tolerance + 2

/-! ## Sessions and fetches -/

/-- A session starts, unless the engine has stopped. -/
def runSession (w : Service) : Service :=
  if w.loop.running then { w with sessions := w.sessions + 1 }.see (.session w.sessions) else w

/-- A fetch is complete. Without the engine nobody takes it in. -/
def finishFetch (w : Service) (number : Nat) (asker : Asker) (found : PriceMap) : Service :=
  let w := { w with errands := w.errands.set number none }
  match w.loop.complete asker found with
  | some loop => { w with loop }.wake .engine
  | none => asker.request?.toList.foldl dropRequest w

/-- Ask the price source for batches one after the other, until one is held back. -/
def askBatches (number : Nat) (asker : Asker) :
    List (List Key) → Fallback.Fetch → Service → Service
  | [], fetch, w => w.finishFetch number asker fetch.found
  | keys :: rest, fetch, w =>
    let (answer, surroundings) := w.surroundings.answer keys
    let w := { w with surroundings }.see (.request keys)
    if surroundings.holding then
      { w with
        errands := w.errands.set number (some ⟨asker, fetch, some answer⟩)
        held := w.held ++ [number] }
    else
      askBatches number asker rest (fetch.answered answer) (w.countRequest answer)

/-- A fetch starts, or goes on with an answer that was held back. -/
def runFetch (number : Nat) (w : Service) : Service :=
  match w.errands[number]? with
  | none | some none => w
  | some (some ⟨asker, fetch, none⟩) => askBatches number asker fetch.remaining fetch w
  | some (some ⟨asker, fetch, some answer⟩) =>
    let fetch := fetch.answered answer
    askBatches number asker fetch.remaining fetch (w.countRequest answer)

/-! ## Clients -/

/-- A client is done and tells its result. -/
def leave (w : Service) (number step : Nat) (result : Except AskError Result) : Service :=
  let w := (w.modifyClient number fun c => { c with pursuit := .gone }).see (.reply step result)
  if w.hasHandle then w else w.wake .engine

/-- A client rests for a while. -/
def rest (w : Service) (number period : Nat) : Service :=
  let due := w.now + period
  let w := w.modifyClient number fun c => { c with pursuit := .resting due }
  { w with resting := w.resting ++ [number] }.setAlarm ⟨due, .client number⟩

/-- A client has said all it has to say: it is done, or it rests before it starts anew. -/
def finishTalk (number : Nat) (result : Except AskError Result) (w : Service) : Service :=
  match w.clients[number]? with
  | none => w
  | some c =>
    match c.period with
    | none => w.leave number c.step result
    | some period => if c.stopAsked then w.leave number c.step result else w.rest number period

/-- A client waits for the answer of the engine to its request. -/
def await (number : Nat) (request : RequestId) (next : Except AskError Answer → Talk)
    (w : Service) : Service :=
  w.modifyClient number fun c => { c with pursuit := .waiting request next }

/-- The part of an engine's answer that was asked for. -/
def pricesIn : Answer → Except AskError PriceMap
  | .prices found => .ok found
  | _ => .error .dropped

@[inherit_doc pricesIn]
def priceIn : Answer → Except AskError (Option Binary64)
  | .price found => .ok found
  | _ => .error .dropped

@[inherit_doc pricesIn]
def rowsIn : Answer → Except AskError (List RowId)
  | .rows ids => .ok ids
  | _ => .error .dropped

/-- Whether a command that nobody waits for was taken. -/
def taken (sent : Bool) : Except AskError Unit := if sent then .ok () else .error .stopped

/-- Follow what a client says until it has to wait for the engine. -/
def follow (number : Nat) : Talk → Service → Service
  | .finished result, w => w.finishTalk number result
  | .ask (.rows user table) next, w =>
    follow number (next (w.surroundings.rowsOf user table)) (w.see (.load user table))
  | .ask (.contract identity) next, w =>
    follow number (next (w.surroundings.contractOf identity)) (w.see (.resolve identity))
  | .ask (.replaceRows scope rows) next, w =>
    let (sent, w) := w.send (.replaceRows scope rows)
    follow number (next (taken sent)) w
  | .ask (.attach row scrip key) next, w =>
    let (sent, w) := w.send (.attach row scrip key)
    follow number (next (taken sent)) w
  | .ask (.prices keys) next, w =>
    match w.send (.prices w.calls keys) with
    | (true, sent) => sent.await number w.calls fun answer => next (answer.bind pricesIn)
    | (false, refused) => follow number (next (.error .stopped)) refused
  | .ask (.price key) next, w =>
    match w.send (.price w.calls key) with
    | (true, sent) => sent.await number w.calls fun answer => next (answer.bind priceIn)
    | (false, refused) => follow number (next (.error .stopped)) refused
  | .ask (.unpriced scope) next, w =>
    match w.send (.unpriced w.calls scope) with
    | (true, sent) => sent.await number w.calls fun answer => next (answer.bind rowsIn)
    | (false, refused) => follow number (next (.error .stopped)) refused

/-- A client goes on with what it is about. -/
def runClient (number : Nat) (w : Service) : Service :=
  match w.clients[number]? with
  | none => w
  | some c =>
    match c.pursuit with
    | .speaking talk => follow number talk w
    | .resting wake =>
      let risen : Service := { w with resting := w.resting.erase number }
      if c.stopAsked then risen.finishTalk number (.ok .done)
      else if wake ≤ w.now then follow number c.talk risen
      else w
    | .waiting .. | .gone => w

/-! ## Turns and time -/

/-- A task runs. -/
def runTask (w : Service) : Task → Service
  | .engine => runEngine w.turns w
  | .session => w.runSession
  | .fetch number => runFetch number w
  | .client number => runClient number w

/-- Run tasks until none is left that has something to do, but so many at most. -/
def settle : Nat → Service → Service
  | 0, w => w
  | patience + 1, w =>
    match w.ready with
    | [] => w
    | t :: rest => settle patience ({ w with ready := rest }.runTask t)

/-- How many tasks may run before time goes on. -/
def patience : Nat := 1000000

/-- Let every timer fire that is due. -/
def fire (w : Service) : Service :=
  let (due, others) := w.alarms.partition (·.due ≤ w.now)
  due.foldl (fun w a => w.wake a.task) { w with alarms := others }

/-- Let time go by until `target`, from one timer to the next. Time passes between any two rounds,
so there are no more of them than there are milliseconds. -/
def passTo (target : Engine.Instant) : Nat → Service → Service
  | 0, w => { w with now := target }
  | fuel + 1, w =>
    match w.alarms with
    | a :: _ =>
      if a.due ≤ target then
        passTo target fuel (settle patience { w with now := max w.now a.due }.fire)
      else { w with now := target }
    | [] => { w with now := target }

/-- Let time go by smoothly. -/
def advance (w : Service) (ms : Nat) : Service := passTo (w.now + ms) (ms + 2) w

/-- Let the clock jump. -/
def jump (w : Service) (ms : Nat) : Service :=
  let w := { w with now := w.now + ms }
  passTo w.now (ms + 2) w

end Service

end QuoteBoard.Rehearsal
