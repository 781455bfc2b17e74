/-
# Readiness over a whole life

The service calls itself ready by the status that its engine has published last. Before the
engine starts that status says that nothing keeps the cells fresh, and while the engine runs
it is the real one. But an engine that stops publishes nothing any more: the status of its
last moment stays, and so the service goes on calling itself ready.
-/

import QuoteBoard.Proofs.Engine.Refresh

namespace QuoteBoard.Engine

/-- The life of an engine: it waits to be started, and then it makes a run, which may end. -/
inductive Life where
  | waiting
  | begun (started : Instant) (moves : List Move)

/-- The engine at a point of its life. -/
def Life.loop (period : Nat) : Life → Loop
  | waiting => .initial period
  | begun started moves => (Traffic.after period started moves).loop

/-- Something really keeps the cells fresh: the engine runs, and its stream is open or its poll
timer is armed. -/
def Loop.keepsFresh (l : Loop) : Bool :=
  l.running && (l.engine.connection.isOpen || l.engine.nextPoll.isSome)

theorem State.InLine.isReady_published {s : State} (h : s.InLine) :
    s.published.isReady = true := by
  rw [h.published, Status.isReady, State.status, h.timer]
  cases s.connection.isOpen <;> rfl

theorem inLine_begun (period : Nat) (started : Instant) (moves : List Move) :
    ((Life.begun started moves).loop period).engine.InLine := by
  have hengine : ((Life.begun started moves).loop period).engine = _ :=
    Traffic.engine_eq_stateAfter period started ⟨moves, rfl⟩
  rw [hengine]
  exact inLine_stateAfter period started _

/-- An engine whose timer is in line keeps the cells fresh as long as it runs. -/
theorem Loop.keepsFresh_eq_running {l : Loop} (h : l.engine.InLine) : l.keepsFresh = l.running := by
  rw [Loop.keepsFresh, h.timer]
  cases l.engine.connection.isOpen <;> simp

/-- **Ready from the start on, for ever.** The service calls itself ready exactly if its engine
has been started, while the cells are really kept fresh exactly as long as the engine runs. So
the report is true before the start and during the run, and false ever after its end. -/
theorem ready_iff_begun (period : Nat) (life : Life) :
    let l := life.loop period
    (l.engine.published.isReady = true ↔ life ≠ .waiting) ∧
    (l.keepsFresh = true ↔ l.running = true) ∧
    ((l.engine.published.isReady = true ↔ l.keepsFresh = true) ↔
      life = .waiting ∨ l.running = true) := by
  intro l
  cases life with
  | waiting => simp [l, Life.loop, Loop.initial, State.initial, Status.initial, Status.isReady,
      Loop.keepsFresh, Feed.Connection.isOpen]
  | begun started moves =>
      have hinLine : l.engine.InLine := inLine_begun period started moves
      simp [hinLine.isReady_published, Loop.keepsFresh_eq_running hinLine]

/-- An engine that was started and asked to stop at once is still called ready. -/
theorem not_forall_ready_iff_keepsFresh :
    ¬ ∀ period life, (Life.loop period life).engine.published.isReady = true ↔
      (Life.loop period life).keepsFresh = true := by
  intro h
  have hended := h 5000 (.begun 0 [.stop])
  revert hended
  decide

end QuoteBoard.Engine
