/-
# The panel follows the engine

The outside reads the cells and the metrics, and both follow the effects of the engine.
After every event the counter of cell writes is the number of writes that the display has
applied, the gauges are those of the engine, and each message of the feed has been counted
under its shape, or as dropped. No effect of the engine counts a request to the price
service: these come to an end beside it.
-/

import QuoteBoard.Health.Panel
import QuoteBoard.Proofs.Engine.Connection
import QuoteBoard.Proofs.Engine.Run
import QuoteBoard.Proofs.Health.Metrics

namespace QuoteBoard.Engine

open QuoteBoard.Feed (Connection Shape StreamEvent)
open QuoteBoard.Health (Display Metrics Panel Tallies)

/-- The message of the feed that an event brings. -/
def Event.message? : Event → Option String
  | .stream (.message text) => some text
  | .stream .opened | .stream (.closed _) | .fetched .. | .command _ | .pollTick => none

/-- The shape of a message, unless it is dropped. -/
def shapeOf? (text : String) : Option Shape :=
  match Feed.read text with
  | .ok (shape, _) => some shape
  | .error _ => none

/-- What the panel shows agrees with the engine, with the messages that it has handled, and with
the answers to the requests that are finished. -/
structure Agrees (p : Panel) (s : State) (messages : List (Option Shape))
    (answers : List (Option PriceMap)) : Prop where
  cellWrites : p.metrics.cellWrites = p.display.writes
  cacheEntries : p.metrics.cacheEntries = s.cache.size
  streamOpen : p.metrics.streamOpen = s.connection.isOpen
  feedMessages : Tallies p.metrics.feedMessages (messages.map Metrics.feedLabel)
  priceRequests :
    Tallies p.metrics.priceRequests (answers.map fun answer => Metrics.outcomeLabel answer.isSome)

/-- The display of a panel follows the effects as a display by itself does. -/
theorem display_foldl_follow (p : Panel) (effects : List Effect) :
    (effects.foldl Panel.follow p).display = effects.foldl Display.follow p.display := by
  induction effects generalizing p with
  | nil => rfl
  | cons e rest ih =>
      rw [List.foldl_cons, List.foldl_cons, ih]
      cases e <;> rfl

/-- To apply writes changes the display alone. -/
theorem foldl_follow_writes (p : Panel) (writes : List Write) :
    (writes.map Effect.write).foldl Panel.follow p =
      { p with display := writes.foldl Display.write p.display } := by
  induction writes generalizing p with
  | nil => rfl
  | cons w rest ih => exact ih (p.follow (.write w))

/-- The display counts the writes that it applies. -/
theorem writes_foldl_write (d : Display) (writes : List Write) :
    (writes.foldl Display.write d).writes = d.writes + writes.length := by
  induction writes generalizing d with
  | nil => rfl
  | cons w rest ih =>
      rw [List.foldl_cons, ih, List.length_cons, Nat.add_comm rest.length, ← Nat.add_assoc]
      rfl

/-- Effects keep a panel in agreement while the engine goes from one state to another and handles
messages of the shapes listed. -/
def Keeps (s : State) (o : Outcome) (shapes : List (Option Shape)) : Prop :=
  ∀ p messages answers, Agrees p s messages answers →
    Agrees (o.2.foldl Panel.follow p) o.1 (shapes ++ messages) answers

namespace Keeps

variable {s s₁ s₂ : State}

theorem append {first second : List Effect} {shapes : List (Option Shape)}
    (h : Keeps s (s₁, first) shapes) (hsecond : Keeps s₁ (s₂, second) []) :
    Keeps s (s₂, first ++ second) shapes := by
  intro p messages answers hp
  have hboth := hsecond _ _ _ (h p messages answers hp)
  rwa [← List.foldl_append] at hboth

/-- The panel sees no more of the engine than its cache and its connection. -/
theorem of_same (hcache : s₁.cache = s.cache) (hconnection : s₁.connection = s.connection) :
    Keeps s (s₁, []) [] := by
  intro p messages answers hp
  refine { hp with cacheEntries := ?_, streamOpen := ?_ }
  · rw [hcache]
    exact hp.cacheEntries
  · rw [hconnection]
    exact hp.streamOpen

/-- The panel does not see the rows. -/
theorem of_board (s : State) (board : Board) : Keeps s ({ s with board }, []) [] := of_same rfl rfl

/-- What is no removal, write or measure does not show on the panel. -/
theorem reply (request : RequestId) (answer : Answer) : Keeps s (s, [.reply request answer]) [] :=
  fun _ _ _ hp => hp

theorem startFetch (asker : Asker) (keys : List Key) : Keeps s (s, [.startFetch asker keys]) [] :=
  fun _ _ _ hp => hp

theorem startSession : Keeps s (s, [.startSession]) [] := fun _ _ _ hp => hp

theorem removals (ids : List RowId) : Keeps s (s, ids.map .remove) [] := by
  intro p messages answers hp
  induction ids generalizing p with
  | nil => exact hp
  | cons id rest ih => exact ih _ { hp with }

/-- To publish the status does not show on the panel. -/
theorem publish {effects : List Effect} {shapes : List (Option Shape)}
    (h : Keeps s (s₁, effects) shapes) : Keeps s (s₁.publish, effects) shapes :=
  fun p messages answers hp => { h p messages answers hp with }

theorem streamOpen (now : Instant) (c : Connection) : Keeps s (s.moveTo now c) [] := by
  intro p messages answers hp
  have hcache : (s.moveTo now c).1.cache = s.cache :=
    congrArg Desk.cache (carries_moveTo s now c).desk
  refine { hp with cacheEntries := ?_, streamOpen := ?_ }
  · rw [hcache]
    exact hp.cacheEntries
  · rw [connection_moveTo]
    rfl

theorem cacheEntries (cache : Cache) (board : Board) :
    Keeps s ({ s with cache, board }, [.measure (.cacheEntries cache.size)]) [] :=
  fun _ _ _ hp => { hp with cacheEntries := rfl }

theorem feedMessage (shape : Option Shape) :
    Keeps s (s, [.measure (.feedMessage shape)]) [shape] :=
  fun _ _ _ hp => { hp with feedMessages := hp.feedMessages.countOne _ }

/-- Writes are counted when all of them have been applied. -/
theorem flush (writes : List Write) : Keeps s (s, Engine.flush writes) [] := by
  intro p messages answers hp
  unfold Engine.flush
  split
  · exact hp
  · rw [List.foldl_append, foldl_follow_writes]
    refine { hp with cellWrites := ?_ }
    show p.metrics.cellWrites + writes.length = (writes.foldl Display.write p.display).writes
    rw [writes_foldl_write, hp.cellWrites]

theorem merge (found : PriceMap) : Keeps s (s.merge found) [] := by
  unfold State.merge
  split
  · exact of_same rfl rfl
  · exact (cacheEntries _ _).append (flush _)

theorem update (u : Feed.Update) : Keeps s (s.update u) [] := by
  cases u with
  | scrip code price => exact (of_board s (s.board.tick code price).1).append (flush _)
  | prices batch => exact merge batch

theorem onMessage (text : String) : Keeps s (s.onMessage text) [shapeOf? text] := by
  unfold State.onMessage shapeOf?
  cases Feed.read text with
  | error e => exact feedMessage none
  | ok result =>
      obtain ⟨shape, u⟩ := result
      exact (feedMessage (some shape)).append (update u)

theorem startStream (now : Instant) : Keeps s (s.startStream now) [] := by
  by_cases hnext : s.connection.next .connect = s.connection
  · rw [startStream_of_started s now hnext]
    exact of_same rfl rfl
  · rw [startStream_of_down s now hnext]
    exact (streamOpen now _).append startSession

theorem askPrices (request : RequestId) (keys : List Key) :
    Keeps s (s, [s.askPrices request keys]) [] := by
  unfold State.askPrices
  split
  · exact reply request _
  · exact startFetch _ keys

theorem askPrice (request : RequestId) (key : Key) :
    Keeps s (s, [s.askPrice request key]) [] := by
  unfold State.askPrice
  split
  · exact reply request _
  · split
    · exact reply request _
    · exact startFetch _ [key]

theorem onFetched (asker : Asker) (found : PriceMap) : Keeps s (s.onFetched asker found) [] := by
  have hmerge := (merge (s := s) found).publish
  cases asker with
  | poll => exact hmerge.append (of_same rfl rfl)
  | prices request => exact hmerge.append (reply request _)
  | price request key => exact hmerge.append (reply request _)

theorem onCommand (now : Instant) (c : Command) : Keeps s (s.onCommand now c) [] := by
  cases c with
  | startStream => exact (startStream now).publish
  | replaceRows scope rows =>
      have hboard := of_board s (s.board.replaceScope scope rows s.cache).board
      exact ((hboard.append (removals _)).append (flush _)).publish
  | attach row scrip key =>
      have hboard := of_board s (s.board.attach row scrip key s.cache).1
      exact (hboard.append (flush _)).publish
  | prices request keys => exact (askPrices request keys).publish
  | price request key => exact (askPrice request key).publish
  | unpriced request scope => exact (reply request _).publish

theorem onPollTick (now : Instant) : Keeps s (s.onPollTick now) [] := by
  have hdue : Keeps s ((s.onPollTick now).1, []) [] := of_same rfl rfl
  have hfetch : Keeps (s.onPollTick now).1 ((s.onPollTick now).1,
      if s.board.trackedKeys = [] then [] else [.startFetch .poll s.board.trackedKeys]) [] := by
    split
    · exact of_same rfl rfl
    · exact startFetch .poll s.board.trackedKeys
  exact hdue.append hfetch

/-- **Each event keeps the panel in agreement**, and counts its message if it brings one. -/
theorem step (now : Instant) (e : Event) :
    Keeps s (s.step now e) (e.message?.toList.map shapeOf?) := by
  cases e with
  | stream e =>
      cases e with
      | opened => exact (streamOpen now _).publish
      | message text => exact (onMessage text).publish
      | closed reason => exact (streamOpen now _).publish
  | fetched asker found => exact onFetched asker found
  | command c => exact onCommand now c
  | pollTick => exact onPollTick now

end Keeps

end QuoteBoard.Engine
