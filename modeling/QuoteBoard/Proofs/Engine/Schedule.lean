/-
# The schedule of the sweeps

On a clock that does not pass by a tick that is due, the poll timer keeps a schedule. Its
first tick comes one period after it was created, every further tick one period after the
one before, and nothing that happens in between moves them: to ask for the stream, to fail to
open it, to bind rows or to fetch prices. Only to open the stream puts an end to a schedule,
and only to leave the open stream begins a new one.
-/

import QuoteBoard.Proofs.Engine.Connection
import QuoteBoard.Proofs.Engine.Order

namespace QuoteBoard.Engine

open QuoteBoard.Feed (StreamEvent)

/-- When the latest event was handled, or when the engine started if there was none. -/
def lastInstant (started : Instant) : Past → Instant
  | [] => started
  | (now, _) :: _ => now

/-- The clock of a past has not gone back, and has not passed by a tick that was due. -/
def OnTime (period : Nat) (started : Instant) : Past → Prop
  | [] => True
  | (now, _) :: earlier =>
    OnTime period started earlier ∧ lastInstant started earlier ≤ now ∧
      ∀ due ∈ (stateAfter period started earlier).nextPoll, now ≤ due

instance OnTime.decidable (period : Nat) (started : Instant) :
    (past : Past) → Decidable (OnTime period started past)
  | [] => .isTrue trivial
  | _ :: earlier =>
    have := decidable period started earlier
    inferInstanceAs (Decidable (_ ∧ _ ∧ _))

/-- The time of an event that is a tick. -/
def tickTime? : Instant × Event → Option Instant
  | (now, .pollTick) => some now
  | (_, .stream _) | (_, .fetched ..) | (_, .command _) => none

/-- The times of the ticks of a past, in order. -/
def tickTimes (past : Past) : List Instant := (past.filterMap tickTime?).reverse

/-- How an event that is handled at `now` leaves the poll timer. -/
structure KeepsTime (period : Nat) (s : State) (now : Instant) (e : Event) : Prop where
  /-- The timer is created where a session ends that had opened the stream. -/
  created : ∀ due, s.nextPoll = none ∧ (s.step now e).1.nextPoll = some due ↔
    s.connection = .opened ∧ (∃ reason, e = .stream (.closed reason)) ∧ due = now + period
  /-- The timer is dropped where the stream opens. -/
  dropped : s.nextPoll ≠ none ∧ (s.step now e).1.nextPoll = none ↔
    s.connection ≠ .opened ∧ e = .stream .opened
  /-- A tick comes at its time, never while the stream is open, and the next one is a period
  away. -/
  ticked : e = .pollTick → s.connection ≠ .opened ∧ s.nextPoll = some now ∧
    (s.step now e).1.nextPoll = some (now + period)
  /-- Nothing else moves the due time. -/
  kept : e ≠ .pollTick → ∀ due due', s.nextPoll = some due →
    (s.step now e).1.nextPoll = some due' → due' = due
  /-- A sweep is what a tick starts. -/
  swept : ∀ keys, .startFetch .poll keys ∈ (s.step now e).2 ↔
    e = .pollTick ∧ keys = s.board.trackedKeys ∧ keys ≠ []

/-! ## One event -/

/-- A tick that is handled at its due time is followed by one that is due a period later. -/
theorem nextDue_self (period : Nat) (now : Instant) : nextDue period now now = now + period := by
  rw [nextDue, if_neg (Nat.not_lt.mpr (Nat.le_add_right now tolerance))]

theorem mem_sweep_iff {s : State} {now : Instant} {e : Event} {keys : List Key} :
    .startFetch .poll keys ∈ (s.step now e).2 ↔
      e = .pollTick ∧ keys = s.board.trackedKeys ∧ keys ≠ [] := by
  rw [mem_startFetch_iff]
  constructor
  · intro hfetch
    cases e with
    | stream | fetched => cases hfetch
    | command c =>
        rw [State.fetch?] at hfetch
        split at hfetch
        · cases hfetch
        · cases c <;> cases hfetch
    | pollTick =>
        rw [State.fetch?] at hfetch
        split at hfetch
        · cases hfetch
        · next hkeys =>
            cases hfetch
            exact ⟨rfl, rfl, hkeys⟩
  · rintro ⟨rfl, rfl, hkeys⟩
    rw [State.fetch?, if_neg hkeys]

variable {s : State} {now : Instant}

/-- An event keeps time if its moment is not past the due time, and reaches it if the event is a
tick. -/
theorem State.InLine.keepsTime (h : s.InLine) {e : Event} (hdue : ∀ due ∈ s.nextPoll, now ≤ due)
    (htick : e = .pollTick → s.pollIsDue now = true) : KeepsTime s.period s now e := by
  have hnone := h.nextPoll_eq_none_iff
  have hstep := h.nextPoll_step now e
  have hat : e = .pollTick → s.nextPoll = some now := by
    intro he
    obtain ⟨due, hpoll, hle⟩ : ∃ due, s.nextPoll = some due ∧ due ≤ now := by
      simpa [State.pollIsDue, Option.any_eq_true] using htick he
    rw [hpoll, Nat.le_antisymm hle (hdue due hpoll)]
  constructor
  case swept => exact fun keys => mem_sweep_iff
  case ticked =>
    intro he
    have hpoll := hat he
    refine ⟨?_, hpoll, ?_⟩
    · rw [Ne, ← hnone, hpoll]
      exact Option.some_ne_none now
    · rw [hstep, he, State.dueAfter, hpoll, Option.map_some, nextDue_self]
  case created | dropped | kept =>
    rw [hstep]
    cases e with
    | stream e =>
        cases e <;> cases hpoll : s.nextPoll <;> simp [State.dueAfter, hpoll, ← hnone, eq_comm]
    | fetched | command =>
        cases hpoll : s.nextPoll <;> simp [State.dueAfter, hpoll, ← hnone, eq_comm]
    | pollTick => simp [State.dueAfter, hat rfl, ← hnone]

/-! ## Runs -/

variable (period : Nat) (started : Instant)

theorem OnTime.of_suffix {period : Nat} {started : Instant} {earlier past : Past}
    (h : OnTime period started past) (hsuffix : earlier <:+ past) :
    OnTime period started earlier := by
  obtain ⟨later, rfl⟩ := hsuffix
  induction later with
  | nil => exact h
  | cons p later ih => exact ih h.1

theorem OnTime.le_lastInstant {period : Nat} {started : Instant} {past : Past}
    (h : OnTime period started past) : ∀ p ∈ past, p.1 ≤ lastInstant started past := by
  induction past with
  | nil => exact fun p hp => absurd hp List.not_mem_nil
  | cons latest earlier ih =>
      intro p hp
      rcases List.mem_cons.mp hp with rfl | hp
      · exact Nat.le_refl _
      · exact Nat.le_trans (ih h.1 p hp) h.2.1

/-- The engine handles a tick only when it is due. -/
theorem Traffic.pollIsDue_of_tick {t : Traffic} (h : Reachable period started t) :
    ∀ now earlier, (now, .pollTick) :: earlier <:+ t.past →
      (stateAfter period started earlier).pollIsDue now = true := by
  refine run_induction period started ?_ ?_ t h
  · intro now earlier hsuffix
    cases List.suffix_nil.mp hsuffix
  · intro t t' ht hleads ih
    cases hleads with
    | handled later e rest hrunning hnext =>
        intro now earlier hsuffix
        rcases List.suffix_cons_iff.mp hsuffix with heq | hsuffix
        · obtain ⟨⟨rfl, rfl⟩, rfl⟩ := by simpa using heq
          rw [← engine_eq_stateAfter period started ht]
          exact Loop.pollIsDue_of_next? hnext
        · exact ih now earlier hsuffix
    | idle | called | refused | reported | completed | lost | stopped => exact ih

/-- Every event of a run that is on time keeps time. -/
theorem Traffic.keepsTime {t : Traffic} (h : Reachable period started t)
    (hontime : OnTime period started t.past) {now : Instant} {e : Event} {earlier : Past}
    (hsuffix : (now, e) :: earlier <:+ t.past) :
    KeepsTime period (stateAfter period started earlier) now e := by
  have hkeeps := (inLine_stateAfter period started earlier).keepsTime (e := e)
    (hontime.of_suffix hsuffix).2.2 fun he => by
      subst he
      exact pollIsDue_of_tick period started h now earlier hsuffix
  rwa [period_stateAfter] at hkeeps

theorem tickTimes_cons (p : Instant × Event) (past : Past) :
    tickTimes (p :: past) = tickTimes past ++ (tickTime? p).toList :=
  reverse_filterMap_cons tickTime? p past

/-- While the stream does not open, ticks come period after period from the due time on. -/
theorem ticks_of_keepsTime {later earlier : Past} {due : Instant}
    (hkeeps : ∀ now e before, (now, e) :: before <:+ later ++ earlier →
      KeepsTime period (stateAfter period started before) now e)
    (hdue : (stateAfter period started earlier).nextPoll = some due)
    (hclosed : ∀ p ∈ later, p.2 ≠ .stream .opened) :
    ∃ n, tickTimes later = (List.range n).map (fun k => due + k * period) ∧
      (stateAfter period started (later ++ earlier)).nextPoll = some (due + n * period) := by
  induction later with
  | nil => exact ⟨0, rfl, by simpa using hdue⟩
  | cons p later ih =>
      obtain ⟨now, e⟩ := p
      have hevent := hkeeps now e (later ++ earlier) List.suffix_rfl
      obtain ⟨n, hticks, hnext⟩ :=
        ih (fun now e before hsuffix => hkeeps now e before (hsuffix.trans (List.suffix_cons _ _)))
          fun p hp => hclosed p (List.mem_cons_of_mem _ hp)
      rw [tickTimes_cons, hticks]
      by_cases he : e = .pollTick
      · -- one tick more, at the time that was next
        obtain ⟨-, hnow, hafter⟩ := hevent.ticked he
        have hat : now = due + n * period := Option.some.inj (hnow.symm.trans hnext)
        refine ⟨n + 1, ?_, ?_⟩
        · rw [he, List.range_succ, List.map_append, hat]
          rfl
        · have hsum : now + period = due + (n + 1) * period := by
            rw [hat, Nat.succ_mul, Nat.add_assoc]
          rw [← hsum]
          exact hafter
      · refine ⟨n, ?_, ?_⟩
        · cases e <;> first | exact absurd rfl he | exact List.append_nil _
        · obtain ⟨due', hafter⟩ : ∃ due', ((stateAfter period started (later ++ earlier)).step
              now e).1.nextPoll = some due' := by
            rw [← Option.ne_none_iff_exists']
            intro hafter
            have hopened := (hevent.dropped.mp ⟨by simp [hnext], hafter⟩).2
            exact hclosed (now, e) List.mem_cons_self hopened
          rw [← hevent.kept he _ _ hnext hafter]
          exact hafter

/-- **The sweeps keep their schedule.** On a clock that does not pass by a due tick, the timer is
created at the start and where a session ends that had opened the stream, with its first tick a
period later; it is dropped where the stream opens; and only its own ticks move it. So as long as
the stream does not open, whatever else happens, the ticks are those of the schedule, none
delayed and none added. -/
theorem poll_schedule (moves : List Move)
    (hontime : OnTime period started (Traffic.after period started moves).past) :
    let t := Traffic.after period started moves
    (stateAfter period started []).nextPoll = some (started + period) ∧
    (∀ now e earlier, (now, e) :: earlier <:+ t.past →
      KeepsTime period (stateAfter period started earlier) now e) ∧
    ∀ later earlier due, t.past = later ++ earlier →
      (stateAfter period started earlier).nextPoll = some due →
      (∀ p ∈ later, p.2 ≠ .stream .opened) →
      ∃ n, tickTimes later = (List.range n).map (fun k => due + k * period) ∧
        t.loop.engine.nextPoll = some (due + n * period) ∧
        ∀ time, lastInstant started t.past ≤ time → time < due + n * period →
          ∀ k, due + k * period ≤ time ↔ k < n := by
  intro t
  have ht : Traffic.Reachable period started t := ⟨moves, rfl⟩
  have hkeeps : ∀ now e earlier, (now, e) :: earlier <:+ t.past →
      KeepsTime period (stateAfter period started earlier) now e :=
    fun now e earlier hsuffix => Traffic.keepsTime period started ht hontime hsuffix
  refine ⟨rfl, hkeeps, ?_⟩
  intro later earlier due hpast hdue hclosed
  rw [hpast] at hkeeps
  obtain ⟨n, hticks, hnext⟩ := ticks_of_keepsTime period started hkeeps hdue hclosed
  refine ⟨n, hticks, ?_, ?_⟩
  · rw [Traffic.engine_eq_stateAfter period started ht, hpast]
    exact hnext
  · intro time hlast hbefore k
    constructor
    · intro hle
      have hlt : k * period < n * period :=
        Nat.lt_of_add_lt_add_left (Nat.lt_of_le_of_lt hle hbefore)
      exact Nat.lt_of_mul_lt_mul_right hlt
    · intro hk
      -- the tick has come, and no event of the past is later than the latest
      have hmem : due + k * period ∈ tickTimes later := by
        rw [hticks]
        exact List.mem_map_of_mem (List.mem_range.mpr hk)
      obtain ⟨⟨now, e⟩, hp, hat⟩ := List.mem_filterMap.mp (List.mem_reverse.mp hmem)
      have hle := hontime.le_lastInstant (now, e) (hpast ▸ List.mem_append_left earlier hp)
      cases e <;> cases hat
      exact Nat.le_trans hle hlast

instance decidableOpened : (e : Event) → Decidable (e = .stream .opened)
  | .stream .opened => .isTrue rfl
  | .stream (.message _) | .stream (.closed _) | .fetched .. | .command _ | .pollTick =>
    .isFalse nofun

/-- The stream opens and ends, and then two starts fail, each shortly before a tick; the latest
move comes first. -/
def failingMoves : List Move :=
  [.turn 2300, .turn 2290, .report (.closed none), .turn 2200, .call .startStream,
    .turn 1300, .turn 1250, .report (.closed none), .turn 1200, .call .startStream,
    .turn 300, .report (.closed none), .turn 200, .report .opened, .turn 100, .call .startStream]

/-- Starts that fail again and again do not move the ticks of a timer that was created at 300. -/
theorem poll_schedule_failing :
    let t := Traffic.after 1000 0 failingMoves
    let later := t.past.take 6
    let earlier := t.past.drop 6
    OnTime 1000 0 t.past ∧ t.past = later ++ earlier ∧
    (stateAfter 1000 0 earlier).nextPoll = some 1300 ∧ (∀ p ∈ later, p.2 ≠ .stream .opened) ∧
    ∃ n, tickTimes later = (List.range n).map (fun k => 1300 + k * 1000) ∧
      t.loop.engine.nextPoll = some (1300 + n * 1000) := by
  intro t later earlier
  have hontime : OnTime 1000 0 t.past := by decide +kernel
  have hpast : t.past = later ++ earlier := (List.take_append_drop 6 t.past).symm
  have hdue : (stateAfter 1000 0 earlier).nextPoll = some 1300 := by decide +kernel
  have hclosed : ∀ p ∈ later, p.2 ≠ .stream .opened := by decide +kernel
  have hschedule := poll_schedule 1000 0 failingMoves hontime
  obtain ⟨-, -, hstretch⟩ := hschedule
  obtain ⟨n, hticks, hnext, -⟩ := hstretch later earlier 1300 hpast hdue hclosed
  exact ⟨hontime, hpast, hdue, hclosed, n, hticks, hnext⟩

end QuoteBoard.Engine
