/-
# What a sweep asks for

A tick of the poll timer starts one fetch, for the keys that the rows look up at that
moment. The engine keeps no list of keys that are still to be fetched and none of those
that failed: every sweep is made anew from the rows. So a request that failed is made up
for by the next sweep wherever a row still looks its keys up, and a key that has lost its
last row is no longer asked for.
-/

import QuoteBoard.Proofs.Board.Tracked
import QuoteBoard.Proofs.Engine.Answers
import QuoteBoard.Proofs.Fallback.Fetch

namespace QuoteBoard.Engine

open QuoteBoard.Fallback (CutInto Source batches effectiveBatchSize)

/-- The requests of a sweep go through the keys that the rows of a board look up: they ask for
each of them once, in ascending order and in full batches, and for nothing else. -/
structure Covers (asked : Nat) (b : Board) (requests : List (List Key)) : Prop where
  mem_iff : ∀ k, k ∈ requests.flatten ↔ ∃ id r, b.row? id = some r ∧ k ∈ r.candidates
  ordered : requests.flatten.Pairwise (· < ·)
  cut : CutInto (effectiveBatchSize asked) requests.flatten requests

/-- There is no request exactly if no row has a key. -/
theorem Covers.eq_nil_iff {asked : Nat} {b : Board} {requests : List (List Key)}
    (h : Covers asked b requests) :
    requests = [] ↔ ∀ id r, b.row? id = some r → r.candidates = [] := by
  rw [h.cut.eq_nil_iff, List.eq_nil_iff_forall_not_mem]
  constructor
  · intro hnone id r hrow
    apply List.eq_nil_iff_forall_not_mem.mpr
    intro k hk
    exact hnone k ((h.mem_iff k).mpr ⟨id, r, hrow, hk⟩)
  · intro hempty k hk
    obtain ⟨id, r, hrow, hcandidate⟩ := (h.mem_iff k).mp hk
    rw [hempty id r hrow] at hcandidate
    cases hcandidate

/-- The keys of the fetch that a tick starts; there are none if it starts no fetch. -/
def State.sweptKeys (s : State) (now : Instant) : List Key :=
  ((s.step now .pollTick).2.filterMap Effect.fetch?).flatMap Prod.snd

section Tick

variable (asked : Nat) (s : State) (now : Instant)

theorem effects_pollTick :
    (s.step now .pollTick).2 =
      if s.board.trackedKeys = [] then [] else [.startFetch .poll s.board.trackedKeys] := rfl

theorem sweptKeys_eq : s.sweptKeys now = s.board.trackedKeys := by
  rw [State.sweptKeys, effects_pollTick]
  split
  · next hkeys => exact hkeys.symm
  · exact List.append_nil _

/-- The tracked keys are distinct as they are, so their batches make up all of them. -/
theorem flatten_batches_trackedKeys :
    (batches asked s.board.trackedKeys).flatten = s.board.trackedKeys := by
  rw [(Fallback.cutInto_batches asked _).flatten]
  exact distinct_of_nodup (nodup_ascending _)

theorem covers_batches : Covers asked s.board (batches asked s.board.trackedKeys) where
  mem_iff k := by
    rw [flatten_batches_trackedKeys]
    exact Board.mem_trackedKeys_iff
  ordered := by
    rw [flatten_batches_trackedKeys]
    exact pairwise_ascending _
  cut := by
    have hcut := Fallback.cutInto_batches asked s.board.trackedKeys
    rwa [← hcut.flatten] at hcut

end Tick

variable (period : Nat) (started : Instant) (asked : Nat) (source : Source)

/-- The fetch that follows a tick at `now`. -/
def sweepAfter (past : Past) (now : Instant) : Fallback.Report :=
  Fallback.fetch asked source ((stateAfter period started past).sweptKeys now)

section Sweeps

variable (past : Past) (now : Instant)

theorem requests_sweepAfter :
    (sweepAfter period started asked source past now).requests =
      batches asked (stateAfter period started past).board.trackedKeys := by
  rw [sweepAfter, Fallback.requests_fetch, sweptKeys_eq]

theorem covers_sweepAfter :
    Covers asked (stateAfter period started past).board
      (sweepAfter period started asked source past now).requests := by
  rw [requests_sweepAfter]
  exact covers_batches asked (stateAfter period started past)

theorem effects_sweep :
    let requests := (sweepAfter period started asked source past now).requests
    ((stateAfter period started past).step now .pollTick).2 =
      if requests = [] then [] else [.startFetch .poll requests.flatten] := by
  intro requests
  have hcovers := covers_sweepAfter period started asked source past now
  have hflatten : requests.flatten = (stateAfter period started past).board.trackedKeys := by
    simp only [requests, requests_sweepAfter]
    exact flatten_batches_trackedKeys asked _
  have hnil : requests = [] ↔ (stateAfter period started past).board.trackedKeys = [] := by
    rw [← hflatten]
    exact hcovers.cut.eq_nil_iff
  simp only [effects_pollTick, hflatten, hnil]

/-- A sweep asks for a key if the operations of the past have left a row that looks it up. -/
theorem mem_sweepAfter_iff {k : Key} :
    k ∈ (sweepAfter period started asked source past now).requests.flatten ↔
      Desk.Tracks k (operations past) := by
  rw [(covers_sweepAfter period started asked source past now).mem_iff, Desk.tracks_iff,
    board_stateAfter]

end Sweeps

theorem operations_append (newer earlier : Past) :
    operations (newer ++ earlier) = operations newer ++ operations earlier :=
  List.filterMap_append

/-- **A sweep covers all rows and nothing else.** A tick starts one fetch, or none if there is
nothing to ask for, and its requests go through the keys of all rows that are bound then: those of
the last binding of each row, with those attached to it since. A key of a request that failed is
asked for by a later sweep if and only if a row that is bound then looks it up; and a key that no
row looks up is not asked for again unless a row is bound to it or it is attached to one. -/
theorem sweep_covers_rows (past : Past) (now : Instant) :
    let s := stateAfter period started past
    let report := sweepAfter period started asked source past now
    (s.step now .pollTick).2 =
        (if report.requests = [] then [] else [.startFetch .poll report.requests.flatten]) ∧
      Covers asked s.board report.requests ∧
      (report.requests = [] ↔ ∀ id r, s.board.row? id = some r → r.candidates = []) ∧
      (∀ id, (s.board.row? id).map (·.candidates) = Desk.lookedUp id (operations past)) ∧
      ∀ (newer : Past) (sourceThen : Source) (nowThen : Instant),
        let pastThen := newer ++ (now, .pollTick) :: past
        let later := sweepAfter period started asked sourceThen pastThen nowThen
        (∀ (number : Nat) (batch : List Key), report.requests[number]? = some batch →
          report.outcomes[number]? = some false → ∀ k ∈ batch,
            (k ∈ later.requests.flatten ↔ ∃ id r,
              (stateAfter period started pastThen).board.row? id = some r ∧ k ∈ r.candidates)) ∧
        ∀ k, k ∉ report.requests.flatten → (∀ op ∈ operations newer, ¬ Desk.Brings k op) →
          k ∉ later.requests.flatten := by
  intro s report
  have hcovers := covers_sweepAfter period started asked source past now
  refine ⟨effects_sweep period started asked source past now, hcovers, hcovers.eq_nil_iff, ?_, ?_⟩
  · intro id
    simp only [s, board_stateAfter]
    exact Desk.candidates_after id (operations past)
  · intro newer sourceThen nowThen pastThen later
    constructor
    · intro number batch _ _ k _
      exact (covers_sweepAfter period started asked sourceThen pastThen nowThen).mem_iff k
    · intro k hk hnewer
      -- the tick itself is no operation, so the log goes on where it was
      have hlog : operations pastThen = operations newer ++ operations past :=
        operations_append newer ((now, .pollTick) :: past)
      rw [mem_sweepAfter_iff, hlog]
      rw [mem_sweepAfter_iff] at hk
      exact Desk.not_tracks_append hk hnewer

/-- A row is bound to the key `E` and then to others, and a second row beside it. -/
def twoRowsPast : Past :=
  [(2, .command (.replaceRows "u/" [{ id := "u/1", candidates := ["B", "A"], scrip := none },
    { id := "u/2", candidates := ["C", "B"], scrip := none }])),
    (1, .command (.replaceRows "u/" [{ id := "u/1", candidates := ["E"], scrip := none }]))]

/-- The first row is bound to another key, and then the fetch of the sweep is complete. -/
def reboundPast : Past :=
  [(1002, .fetched .poll TextMap.empty),
    (1001, .command (.replaceRows "u/1" [{ id := "u/1", candidates := ["D"], scrip := none }]))]

/-- All requests of a sweep fail, and then the first row is bound to another key. The next sweep
asks again for the key `B`, which the other row looks up as well, and no longer for `A`; and as
nothing brings `E` in again, it does not ask for that either. -/
theorem sweep_covers_rows_rebound :
    let report := sweepAfter 1000 0 1 (fun _ _ => none) twoRowsPast 1000
    let later := sweepAfter 1000 0 1 (fun _ _ => none)
      (reboundPast ++ (1000, .pollTick) :: twoRowsPast) 2000
    report.requests = [["A"], ["B"], ["C"]] ∧ report.outcomes = [false, false, false] ∧
      "B" ∈ later.requests.flatten ∧ "A" ∉ later.requests.flatten ∧
      "E" ∉ report.requests.flatten ∧ "E" ∉ later.requests.flatten := by
  intro report later
  have hrequests : report.requests = [["A"], ["B"], ["C"]] := by decide +kernel
  have houtcomes : report.outcomes = [false, false, false] := by decide +kernel
  have habsent : "E" ∉ report.requests.flatten := by
    rw [hrequests]
    decide
  obtain ⟨-, -, -, -, hlater⟩ := sweep_covers_rows 1000 0 1 (fun _ _ => none) twoRowsPast 1000
  obtain ⟨hfailed, hunbrought⟩ := hlater reboundPast (fun _ _ => none) 2000
  refine ⟨hrequests, houtcomes, ?_, by decide +kernel, habsent, ?_⟩
  · have hB := hfailed 1 ["B"] (congrArg (·[1]?) hrequests) (congrArg (·[1]?) houtcomes) "B"
      (List.mem_singleton_self "B")
    let bound : Row := { id := "u/2", candidates := ["C", "B"], scrip := none, shown := some "-" }
    exact hB.mpr ⟨"u/2", bound, by decide +kernel, by decide⟩
  · exact hunbrought "E" habsent (by decide +kernel)

end QuoteBoard.Engine
