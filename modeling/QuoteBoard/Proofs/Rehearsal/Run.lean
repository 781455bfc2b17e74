/-
# A rehearsal is a run of the traffic

Whatever a task of a rehearsal does, it either leaves the engine alone or makes moves of the
traffic. So a service that keeps step with a run of the traffic still does so when a task has run,
when all tasks have come to rest, when time has gone by, and when a step of the script has been
taken (`KeepsStep`). What the reports of a rehearsal tell of the engine is therefore what it is
after a run of the traffic, and the pages show the cells as they are after its past
(`tells_rehearse`).
-/

import QuoteBoard.Proofs.Rehearsal.Traffic

namespace QuoteBoard.Rehearsal

open QuoteBoard.Dashboard (AskError)
open QuoteBoard.Engine (Answer Command Instant Traffic displayAfter)
open QuoteBoard.Feed (StreamEvent)
open QuoteBoard.Health (Metrics View)

namespace Service

/-- A service keeps step with some run of the traffic. -/
def KeepsStep (period : Nat) (started : Instant) (w : Service) : Prop :=
  ∃ t, w.Follows period started t

namespace KeepsStep

variable {period : Nat} {started : Instant} {w w' : Service}

theorem of_does {answered : List Engine.RequestId} (h : w.KeepsStep period started)
    (hdoes : Does w w' [] answered) : w'.KeepsStep period started := by
  obtain ⟨t, h⟩ := h
  exact ⟨t, h.of_does hdoes⟩

/-- Nothing changes that has to do with the engine. -/
theorem of_same (h : w.KeepsStep period started) (hsame : w'.atEngine = w.atEngine) :
    w'.KeepsStep period started := h.of_does (.of_same hsame)

theorem wake (h : w.KeepsStep period started) (task : Task) :
    (w.wake task).KeepsStep period started := h.of_does (does_wake w task)

/-! ## Tasks -/

/-- The engine runs. -/
theorem runEngine (h : w.KeepsStep period started) (fuel : Nat) :
    (w.runEngine fuel).KeepsStep period started := by
  induction fuel generalizing w with
  | zero => exact h
  | succ fuel ih =>
      rw [Service.runEngine]
      split
      · exact h
      · split
        · obtain ⟨t, h⟩ := h
          exact ⟨_, h.stop⟩
        · split
          · next e rest hnext =>
              obtain ⟨t, h⟩ := h
              exact ih ⟨_, h.turn hnext⟩
          · exact h.of_does (does_setPollAlarm w)

/-- A fetch asks for batches until its answers are held back or it is complete. -/
theorem askBatches (h : w.KeepsStep period started) {number : Nat} {errand : Errand}
    (herrand : w.errands[number]? = some (some errand)) (batches : List (List Key))
    (fetch : Fallback.Fetch) :
    (w.askBatches number errand.asker batches fetch).KeepsStep period started := by
  induction batches generalizing w fetch with
  | nil =>
      obtain ⟨t, h⟩ := h
      obtain ⟨position, hdone⟩ := h.finish herrand fetch.found
      exact ⟨_, hdone⟩
  | cons keys rest ih =>
      let asked : Service :=
        { w with surroundings := (w.surroundings.answer keys).2 }.see (.request keys)
      have hasked : asked.KeepsStep period started := h.of_same rfl
      rw [Service.askBatches]
      dsimp only
      split
      · exact hasked.of_does (does_hold asked herrand fetch _)
      · exact ih (hasked.of_does (does_countRequest asked _)) herrand _

theorem runFetch (h : w.KeepsStep period started) (number : Nat) :
    (w.runFetch number).KeepsStep period started := by
  unfold Service.runFetch
  split
  · exact h
  · exact h
  · next asker fetch herrand => exact h.askBatches herrand _ _
  · next asker fetch answer herrand =>
      exact (h.of_does (does_countRequest w answer)).askBatches herrand _ _

/-- A client sends a command without a request. -/
theorem send (h : w.KeepsStep period started) (c : Command) :
    (w.send c).2.KeepsStep period started := by
  obtain ⟨t, h⟩ := h
  exact ⟨_, (h.send c).1⟩

/-- A client sends a request. If the engine takes it, the client begins to wait for the answer. -/
theorem ask (h : w.KeepsStep period started) {c : Command}
    (hrequest : (c.named w.calls).request? = some w.calls) (number : Nat)
    (next : Except AskError Answer → Talk) {refuse : Service → Service}
    (hrefuse : ∀ w' : Service, w'.KeepsStep period started →
      (refuse w').KeepsStep period started) :
    (match w.send c with
      | (true, sent) => sent.await number w.calls next
      | (false, refused) => refuse refused).KeepsStep period started := by
  obtain ⟨t, h⟩ := h
  obtain ⟨hfollows, hawaited, hwaits⟩ := h.send c
  cases hsend : w.send c with
  | mk taken w' =>
      rw [hsend] at hfollows hawaited hwaits
      cases taken with
      | false => exact hrefuse w' ⟨_, hfollows⟩
      | true =>
          have hnew : w.calls ∉ w'.awaited := by
            rw [hawaited]
            apply h.notMem_awaited
            rw [← h.calls_eq]
            exact hrequest
          exact ⟨_, hfollows.await hnew (hwaits rfl _ hrequest) number next⟩

/-- A client says what it has to say until it waits or is done. -/
theorem follow (h : w.KeepsStep period started) (number : Nat) (talk : Talk) :
    (w.follow number talk).KeepsStep period started := by
  induction talk generalizing w with
  | finished result => exact h.of_does (does_finishTalk w number result)
  | ask a next ih =>
      cases a with
      | rows user table => exact ih _ (h.of_does (does_see w _))
      | contract identity => exact ih _ (h.of_does (does_see w _))
      | replaceRows scope rows => exact ih _ (h.send _)
      | attach row scrip key => exact ih _ (h.send _)
      | prices keys => exact h.ask rfl number _ fun _ => ih _
      | price key => exact h.ask rfl number _ fun _ => ih _
      | unpriced scope => exact h.ask rfl number _ fun _ => ih _

theorem runClient (h : w.KeepsStep period started) (number : Nat) :
    (w.runClient number).KeepsStep period started := by
  unfold Service.runClient
  split
  · exact h
  · split
    · exact h.follow number _
    · have hrisen : { w with resting := w.resting.erase number }.KeepsStep period started :=
        h.of_same rfl
      dsimp only
      split
      · exact hrisen.of_does (does_finishTalk _ number _)
      · split
        · exact hrisen.follow number _
        · exact h
    · exact h
    · exact h

theorem runTask (h : w.KeepsStep period started) (task : Task) :
    (w.runTask task).KeepsStep period started := by
  cases task with
  | engine => exact h.runEngine w.turns
  | session => exact h.of_does (does_runSession w)
  | fetch number => exact h.runFetch number
  | client number => exact h.runClient number

theorem settle (h : w.KeepsStep period started) (patience : Nat) :
    (w.settle patience).KeepsStep period started := by
  induction patience generalizing w with
  | zero => exact h
  | succ patience ih =>
      rw [Service.settle]
      split
      · exact h
      · next task rest _ =>
          have hready : { w with ready := rest }.KeepsStep period started := h.of_same rfl
          exact ih (hready.runTask task)

/-! ## Time -/

theorem fire (h : w.KeepsStep period started) : w.fire.KeepsStep period started := by
  have hothers (alarms : List Alarm) : { w with alarms }.KeepsStep period started := h.of_same rfl
  exact (hothers _).of_does (does_wakeAll _ _ Alarm.task)

/-- Time goes by. -/
theorem passTo (h : w.KeepsStep period started) (target : Instant) (fuel : Nat) :
    (w.passTo target fuel).KeepsStep period started := by
  induction fuel generalizing w with
  | zero => exact h.of_same rfl
  | succ fuel ih =>
      have hnow (now : Instant) : { w with now }.KeepsStep period started := h.of_same rfl
      rw [Service.passTo]
      split
      · split
        · exact ih ((hnow _).fire.settle patience)
        · exact hnow target
      · exact hnow target

/-! ## Steps of a script -/

/-- A session reports events one after the other. -/
theorem report (h : w.KeepsStep period started) {events : List StreamEvent} {loop : Engine.Loop}
    (hloop : w.loop.report events = some loop) : { w with loop }.KeepsStep period started := by
  induction events generalizing w with
  | nil =>
      obtain rfl : loop = w.loop := by
        rw [Engine.Loop.report, List.append_nil] at hloop
        split at hloop
        · exact (Option.some.inj hloop).symm
        · cases hloop
      exact h
  | cons e rest ih =>
      rw [Engine.Loop.report_cons, Option.bind_eq_some_iff] at hloop
      obtain ⟨middle, hfirst, hrest⟩ := hloop
      obtain ⟨t, h⟩ := h
      have hmiddle : { w with loop := middle }.KeepsStep period started :=
        ⟨_, h.report e hfirst⟩
      exact ih (w := { w with loop := middle }) hmiddle hrest

theorem hear (h : w.KeepsStep period started) (session : Option Nat)
    (events : List StreamEvent) : (w.report session events).1.KeepsStep period started := by
  unfold Service.report
  extract_lets known
  split
  · exact h
  · split
    · exact h
    · split
      · next loop hloop => exact (h.report hloop).wake .engine
      · exact h

theorem give (h : w.KeepsStep period started) (c : Command) :
    (w.give c).1.KeepsStep period started := by
  have hsent := h.send c
  unfold Service.give
  split
  all_goals
    next hsend =>
      rw [hsend] at hsent
      exact hsent

theorem carryOut (h : w.KeepsStep period started) (number : Nat) (s : Step) :
    (w.carryOut number s).1.KeepsStep period started := by
  cases s with
  | command c => exact h.give c
  | sendOut talk rest => exact h.of_does (does_sendOut w number talk rest)
  | stopClients => exact h.of_does (does_stopClients w)
  | release count => exact h.of_does (does_release w count)
  | stream session events => exact h.hear session events
  | advance ms => exact h.passTo _ _
  | jump ms =>
      have hnow : { w with now := w.now + ms }.KeepsStep period started := h.of_same rfl
      exact hnow.passTo _ _
  | shutdown =>
      have hasked : { w with stopAsked := true }.KeepsStep period started := h.of_same rfl
      exact hasked.wake .engine
  | leave =>
      have hleft : { w with attended := false }.KeepsStep period started := h.of_same rfl
      exact hleft.wake .engine
  | page method target => exact h
  | setPrices | failNext | hold | setRows | setContract => exact h.of_same rfl

/-- A service goes on keeping step when it takes a step of its script. -/
theorem take (h : w.KeepsStep period started) (number : Nat) (s : Step) :
    (w.take number s).1.KeepsStep period started := by
  have hseen : { w with seen := [] }.KeepsStep period started := h.of_same rfl
  exact (hseen.carryOut number s).settle patience

/-- A service keeps step as soon as the engine has started. -/
theorem start (period batchSize : Nat) : (initial period batchSize).start.KeepsStep period 0 := by
  refine KeepsStep.wake ⟨.initial period 0, ?_⟩ .engine
  exact ⟨⟨[], rfl⟩, rfl, rfl, rfl, .refl _, List.nodup_nil, nofun⟩

end KeepsStep

end Service

/-- A report tells of an engine that a run of the traffic leads to, and a page of the cells after
its past. -/
structure Tells (period : Nat) (started : Instant) (s : Step) (r : Report) : Prop where
  status : ∃ t, Traffic.Reachable period started t ∧ r.status = t.loop.engine.published
  page : ∀ method target, s = .page method target → ∃ (t : Traffic) (metrics : Metrics),
    Traffic.Reachable period started t ∧
      let v : View := ⟨t.loop.engine.published, metrics, displayAfter period started t.past⟩
      r.reaction = some (.page (v.respond method target))

namespace Service

variable {period : Nat} {started : Instant} {w : Service}

theorem KeepsStep.tells (h : w.KeepsStep period started) (number : Nat) (s : Step) :
    Tells period started s (w.take number s).2 where
  status := by
    obtain ⟨t, hafter⟩ := h.take number s
    exact ⟨t, hafter.reachable, congrArg (·.engine.published) hafter.loop_eq⟩
  page := by
    rintro method target rfl
    obtain ⟨t, h⟩ := h
    refine ⟨t, w.panel.metrics, h.reachable, ?_⟩
    rw [← h.loop_eq, ← h.display_eq]
    rfl

theorem KeepsStep.tells_takeAll (h : w.KeepsStep period started) (steps : List (Step × Nat)) :
    List.Forall₂ (Tells period started) (steps.map Prod.fst) (w.takeAll steps) := by
  induction steps generalizing w with
  | nil => exact .nil
  | cons step rest ih => exact .cons (h.tells step.2 step.1) (ih (h.take step.2 step.1))

end Service

/-- The reports of a rehearsal, one for each step after the first, tell of runs of the traffic. -/
theorem tells_rehearse (period batchSize : Nat) (script : List Step) :
    ∃ first reports, rehearse period batchSize script = first :: reports ∧
      first.status = .initial ∧ List.Forall₂ (Tells period 0) script reports := by
  refine ⟨_, _, rfl, rfl, ?_⟩
  have hsettled := (Service.KeepsStep.start period batchSize).settle Service.patience
  have hall := hsettled.tells_takeAll script.zipIdx
  rwa [List.zipIdx_map_fst] at hall

end QuoteBoard.Rehearsal
