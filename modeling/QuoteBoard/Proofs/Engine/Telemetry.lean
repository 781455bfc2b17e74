/-
# What is reported of a run

An engine handles events, whatever they are, and the fetches that it has started ask for
their batches beside it. A run is any interleaving of the two; its requests come to an end
in any order of the fetches, and some may never do. What is reported of a run is exact: no
write that the display is sent is redundant, the counter of cell writes is the number of
writes that the display has applied, the gauges are those of the engine, and each message
of the feed and each finished request has been counted once.
-/

import QuoteBoard.Proofs.Board.Writes
import QuoteBoard.Proofs.Engine.Cells
import QuoteBoard.Proofs.Engine.Panel
import QuoteBoard.Proofs.Fallback.Batch
import QuoteBoard.Fallback.Fetch

namespace QuoteBoard.Engine

open QuoteBoard.Fallback (Fetch batches)
open QuoteBoard.Health (Display Metrics Panel Tallies)

/-! ## No write is redundant -/

/-- Each write among effects changes the text of its cell or makes the cell. -/
def NoneRedundant : Display → List Effect → Prop :=
  Along Display.follow fun d e => ∀ w, e = .write w → d.cell? w.row ≠ some w.text

namespace NoneRedundant

variable {d : Display}

/-- Only effects on cells matter. -/
theorem of_filter {effects : List Effect}
    (h : NoneRedundant d (effects.filter Effect.isOnCells)) : NoneRedundant d effects := by
  rintro before _ after rfl w rfl
  have hsplit : (before ++ .write w :: after).filter Effect.isOnCells =
      before.filter Effect.isOnCells ++ .write w :: after.filter Effect.isOnCells := by
    rw [List.filter_append, List.filter_cons_of_pos rfl]
  have hchanges := h _ _ _ hsplit w rfl
  rw [Display.cell?] at hchanges ⊢
  rwa [cells_follow_filter]

theorem of_changing {p : Performed} (h : Changing (removeCells d.cells p.removed) p.writes) :
    NoneRedundant d (cellEffects p) := by
  apply Along.append
  · intro before e after hsplit w he
    have hmem : e ∈ p.removed.map Effect.remove :=
      hsplit ▸ List.mem_append_right before List.mem_cons_self
    obtain ⟨id, -, rfl⟩ := List.mem_map.mp hmem
    cases he
  · intro before e after hsplit w he
    obtain ⟨first, rest, hwrites, rfl, hrest⟩ := List.map_eq_append_iff.mp hsplit
    obtain ⟨v, more, rfl, hv, rfl⟩ := List.map_eq_cons_iff.mp hrest
    cases hv.trans he
    rw [Display.cell?, cells_follow_writes, cells_follow_removals]
    exact h first w more hwrites

end NoneRedundant

variable (period : Nat) (started : Instant)

/-- **No write of a run is redundant.** -/
theorem noneRedundant_effectsAfter (past : Past) :
    NoneRedundant .blank (effectsAfter period started past) := by
  induction past with
  | nil => exact Along.nil
  | cons p earlier ih =>
      obtain ⟨now, e⟩ := p
      apply Along.append ih
      have hstep := carries_step (stateAfter period started earlier) now e
      apply NoneRedundant.of_filter
      rw [hstep.cells]
      apply NoneRedundant.of_changing
      cases e.operation? with
      | none => exact Along.nil
      | some op =>
          exact (mirrors_displayAfter period started earlier).changing_perform
            (namesRows_stateAfter period started earlier) op

/-! ## Runs with their requests -/

/-- The engine at work, with the fetches that it has started and all that is reported of them. -/
structure Work where
  engine : State
  past : Past
  /-- The fetches, in the order in which they were started. -/
  fetches : List Fetch
  /-- The finished requests, the latest first: their keys, and the answer unless they failed. -/
  finished : List (List Key × Option PriceMap)
  panel : Panel

/-- What may happen next. -/
inductive Happening where
  | handled (now : Instant) (e : Event)
  /-- The request that a fetch waits for is answered, or it fails. -/
  | answered (number : Nat) (answer : Option PriceMap)

namespace Work

/-- The engine has started, and nothing has happened. -/
def begin : Work := ⟨(State.initial period).start started, [], [], [], .blank⟩

variable (asked : Nat)

/-- The engine handles an event. -/
def handle (w : Work) (now : Instant) (e : Event) : Work :=
  let (engine, effects) := w.engine.step now e
  { w with
    engine
    past := (now, e) :: w.past
    fetches := w.fetches ++ (effects.filterMap Effect.fetch?).map fun (_, keys) => .start asked keys
    panel := effects.foldl Panel.follow w.panel }

/-- The request that a fetch waits for is finished; a complete fetch waits for none. -/
def finish (w : Work) (number : Nat) (answer : Option PriceMap) : Work :=
  match w.fetches[number]? with
  | none => w
  | some fetch =>
    match fetch.nextBatch? with
    | none => w
    | some keys =>
      { w with
        fetches := w.fetches.set number (fetch.answered answer)
        finished := (keys, answer) :: w.finished
        panel := w.panel.finishRequest answer }

/-- What has come of a run, the latest happening of which comes first. -/
def after : List Happening → Work
  | [] => begin period started
  | .handled now e :: earlier => (after earlier).handle asked now e
  | .answered number answer :: earlier => (after earlier).finish number answer

/-- The requests that are still to come. -/
def outstanding (w : Work) : List (List Key) := w.fetches.flatMap (·.remaining)

end Work

/-- The messages of the feed that have been handled, the latest first. -/
def messages (past : Past) : List String := past.filterMap fun p => p.2.message?

/-- The requests of the fetches that have been started. -/
def requestsOf (asked : Nat) (past : Past) : List (List Key) :=
  ((effectsAfter period started past).filterMap Effect.fetch?).flatMap fun (_, keys) =>
    batches asked keys

/-- What is known of a run. -/
structure Work.Exact (asked : Nat) (w : Work) : Prop where
  engine : w.engine = stateAfter period started w.past
  display : w.panel.display = displayAfter period started w.past
  agrees : Agrees w.panel w.engine ((messages w.past).map shapeOf?) (w.finished.map Prod.snd)
  /-- Each request is either finished or still to come. -/
  requests :
    (w.finished.map Prod.fst ++ w.outstanding).Perm (requestsOf period started asked w.past)

/-- To take one member out of one of several lists takes it out of all of them together. -/
theorem perm_flatMap_set {α β : Type} (parts : α → List β) {xs : List α} {n : Nat} {x y : α}
    {b : β} (hx : xs[n]? = some x) (hparts : parts x = b :: parts y) :
    (b :: (xs.set n y).flatMap parts).Perm (xs.flatMap parts) := by
  induction xs generalizing n with
  | nil => cases hx
  | cons first rest ih =>
      cases n with
      | zero =>
          cases hx
          rw [List.set_cons_zero, List.flatMap_cons, List.flatMap_cons, hparts]
          exact List.Perm.refl _
      | succ n =>
          rw [List.set_cons_succ, List.flatMap_cons, List.flatMap_cons]
          exact List.perm_middle.symm.trans ((ih hx).append_left (parts first))

namespace Work.Exact

variable {period started} {asked : Nat} {w : Work}

theorem begin : (Work.begin period started).Exact period started asked where
  engine := rfl
  display := rfl
  agrees := by
    constructor
    case feedMessages | priceRequests => exact Tallies.nil
    case streamOpen =>
      exact (congrArg (·.isOpen) (connection_syncTimer (State.initial period) started)).symm
    case cellWrites => rfl
    case cacheEntries =>
      exact (congrArg (Cache.size ·.cache) (desk_syncTimer (State.initial period) started)).symm
  requests := List.Perm.refl _

theorem effectsAfter_cons (h : w.Exact period started asked) (now : Instant) (e : Event) :
    effectsAfter period started ((now, e) :: w.past) =
      effectsAfter period started w.past ++ (w.engine.step now e).2 := by
  rw [h.engine]
  rfl

theorem handle (h : w.Exact period started asked) (now : Instant) (e : Event) :
    (w.handle asked now e).Exact period started asked where
  engine := by
    show (w.engine.step now e).1 = _
    rw [h.engine]
    rfl
  display := by
    show ((w.engine.step now e).2.foldl Panel.follow w.panel).display = _
    rw [display_foldl_follow, h.display, displayAfter, ← List.foldl_append,
      ← h.effectsAfter_cons now e]
    rfl
  agrees := by
    have hmessages : messages ((now, e) :: w.past) = e.message?.toList ++ messages w.past := by
      unfold messages
      cases hmessage : e.message? <;> simp [hmessage]
    have hkeeps := Keeps.step now e w.panel _ _ h.agrees
    rw [← List.map_append, ← hmessages] at hkeeps
    exact hkeeps
  requests := by
    have houtstanding : (w.handle asked now e).outstanding = w.outstanding ++
        ((w.engine.step now e).2.filterMap Effect.fetch?).flatMap fun (_, keys) =>
          batches asked keys := by
      show (w.fetches ++ _).flatMap (·.remaining) = _
      rw [List.flatMap_append, List.flatMap_map]
      rfl
    have hrequests := h.requests.append_right
      (((w.engine.step now e).2.filterMap Effect.fetch?).flatMap fun (_, keys) =>
        batches asked keys)
    rw [List.append_assoc, ← houtstanding] at hrequests
    show (w.finished.map Prod.fst ++ _).Perm (requestsOf period started asked ((now, e) :: w.past))
    rw [requestsOf, h.effectsAfter_cons now e, List.filterMap_append, List.flatMap_append]
    exact hrequests

theorem finish (h : w.Exact period started asked) (number : Nat) (answer : Option PriceMap) :
    (w.finish number answer).Exact period started asked := by
  unfold Work.finish
  cases hfetch : w.fetches[number]? with
  | none => exact h
  | some fetch =>
      cases hnext : fetch.nextBatch? with
      | none => simpa only [hnext] using h
      | some keys =>
          simp only [hnext]
          have hparts : fetch.remaining = keys :: (fetch.answered answer).remaining :=
            List.eq_cons_of_mem_head? hnext
          refine { engine := h.engine, display := h.display, agrees := ?_, requests := ?_ }
          · exact { h.agrees with priceRequests := h.agrees.priceRequests.countOne _ }
          · have hleft := perm_flatMap_set Fetch.remaining hfetch hparts
            exact (List.perm_middle.symm.trans (hleft.append_left _)).trans h.requests

theorem after (happenings : List Happening) :
    (Work.after period started asked happenings).Exact period started asked := by
  induction happenings with
  | nil => exact begin
  | cons happening earlier ih =>
      cases happening with
      | handled now e => exact ih.handle now e
      | answered number answer => exact ih.finish number answer

end Work.Exact

/-- **What is reported of a run is exact.** Each write of a run changes the text that its cell holds
or makes the cell, and the counter of writes is the number that the display has applied. The gauges
start at zero and are those of the engine after every event. The messages of the feed are counted
under their shapes or as dropped, no two of which share a label, and the finished requests under
their outcomes; these are requests of the fetches that were started, each finished once. -/
theorem telemetry_exact (asked : Nat) (happenings : List Happening) :
    let w := Work.after period started asked happenings
    let s := stateAfter period started w.past
    let metrics := w.panel.metrics
    (∀ before write after, effectsAfter period started w.past = before ++ .write write :: after →
      (before.foldl Display.follow .blank).cell? write.row ≠ some write.text) ∧
    w.panel.display = displayAfter period started w.past ∧
    metrics.cellWrites = w.panel.display.writes ∧
    metrics.cacheEntries = s.cache.size ∧ metrics.streamOpen = s.connection.isOpen ∧
    (Work.begin period started).panel.metrics.cacheEntries = 0 ∧
    (Work.begin period started).panel.metrics.streamOpen = false ∧
    Tallies metrics.feedMessages
      ((messages w.past).map fun text => Metrics.feedLabel (shapeOf? text)) ∧
    Tallies metrics.priceRequests
      (w.finished.map fun (_, answer) => Metrics.outcomeLabel answer.isSome) ∧
    Function.Injective Metrics.feedLabel ∧ Function.Injective Metrics.outcomeLabel ∧
    (w.finished.map Prod.fst ++ w.outstanding).Perm (requestsOf period started asked w.past) := by
  intro w s metrics
  have hexact : w.Exact period started asked := Work.Exact.after happenings
  have hagrees := hexact.agrees
  rw [hexact.engine] at hagrees
  refine ⟨?_, hexact.display, hagrees.cellWrites, hagrees.cacheEntries, hagrees.streamOpen, rfl,
    rfl, ?_, ?_, Metrics.feedLabel_injective, Metrics.outcomeLabel_injective, hexact.requests⟩
  · intro before write after hsplit
    exact noneRedundant_effectsAfter period started w.past before _ after hsplit write rfl
  · have hmessages := hagrees.feedMessages
    rwa [List.map_map] at hmessages
  · have hanswers := hagrees.priceRequests
    rwa [List.map_map] at hanswers

/-- A row is bound, a sweep asks for its key and is answered, and a tick brings another price. -/
def tickedHappenings : List Happening :=
  [.handled 1002 (.stream (.message "\x7b\"scripCode\": 7, \"ltp\": 5\x7d")),
    .answered 0 (some (TextMap.ofList [("A", ⟨0x4024000000000000⟩)])), .handled 1000 .pollTick,
    .handled 1 (.command (.replaceRows "u/"
      [{ id := "u/1", candidates := ["A"], scrip := some "7" }]))]

/-- What has come of `tickedHappenings`. -/
def tickedWork : Work := .after 1000 0 90 tickedHappenings

/-- The tick writes `5.00` over the placeholder; two writes, one message and one request have been
counted. -/
theorem telemetry_exact_ticked :
    let before := [.write ⟨"u/1", "-"⟩, .measure (.cellWrites 1), .startFetch .poll ["A"],
      .measure (.feedMessage (some .scripTick))]
    effectsAfter 1000 0 tickedWork.past =
        before ++ .write ⟨"u/1", "5.00"⟩ :: [.measure (.cellWrites 1)] ∧
      (before.foldl Display.follow .blank).cell? "u/1" ≠ some "5.00" ∧
      tickedWork.panel.metrics.cellWrites = 2 ∧ tickedWork.panel.display.writes = 2 ∧
      Tallies tickedWork.panel.metrics.feedMessages ["scrip_tick"] ∧
      Tallies tickedWork.panel.metrics.priceRequests ["ok"] := by
  intro before
  have hwork : Work.after 1000 0 90 tickedHappenings = tickedWork := rfl
  have heffects : effectsAfter 1000 0 tickedWork.past =
      before ++ .write ⟨"u/1", "5.00"⟩ :: [.measure (.cellWrites 1)] := by decide +kernel
  have hwrites : tickedWork.panel.display.writes = 2 := by decide +kernel
  have hlabels : ((messages tickedWork.past).map fun text =>
      Metrics.feedLabel (shapeOf? text)) = ["scrip_tick"] := by decide +kernel
  have houtcomes : (tickedWork.finished.map fun (_, answer) =>
      Metrics.outcomeLabel answer.isSome) = ["ok"] := by decide +kernel
  have hexact := telemetry_exact 1000 0 90 tickedHappenings
  rw [hwork] at hexact
  obtain ⟨hchanges, -, hcount, -, -, -, -, hmessages, hrequests, -⟩ := hexact
  rw [hlabels] at hmessages
  rw [houtcomes] at hrequests
  have hchanged := hchanges before ⟨"u/1", "5.00"⟩ [.measure (.cellWrites 1)] heffects
  exact ⟨heffects, hchanged, hcount.trans hwrites, hwrites, hmessages, hrequests⟩

end QuoteBoard.Engine
