/-
# The reports of a session

Only two kinds of arrivals are of account to a session: the texts that come before the end
of the stream, and what ends it. So its reports can be read off what has arrived without
following the session: the opening, one message for each of these texts, and one end with
the reason that its cause gives. This is the contract that the engine relies on.
-/

import QuoteBoard.Feed.Frame
import QuoteBoard.Proofs.Engine.Sessions

namespace QuoteBoard.Feed

open QuoteBoard.Engine (KeepsContract isEnd)

/-- The text of a message, if it is one of text. -/
def Arrival.text? : Arrival → Option String
  | text s => some s
  | binary | ping | pong | close _ | failure _ => none

/-- The reason for the end of the stream that an arrival gives, if it ends the stream. -/
def Arrival.reason? : Arrival → Option String
  | text _ | binary | ping | pong => none
  | close none => some "close frame"
  | close (some (code, reason)) => some ("close frame " ++ Nat.repr code ++ ": " ++ reason)
  | failure error => some ("WebSocket error: " ++ error)

namespace Session

/-- The texts that arrive before the stream ends. -/
def textsBeforeEnd (arrivals : List Arrival) : List String :=
  (arrivals.takeWhile fun a => !a.isLast).filterMap Arrival.text?

/-- The reason for which the stream ends: that of the first arrival to end it, and none if nothing
more arrives. -/
def endReason (arrivals : List Arrival) : Option String :=
  (arrivals.find? Arrival.isLast).bind Arrival.reason?

section Arrivals

variable {a : Arrival} (rest : List Arrival)

theorem textsBeforeEnd_of_isLast (h : a.isLast = true) : textsBeforeEnd (a :: rest) = [] := by
  rw [textsBeforeEnd, List.takeWhile_cons_of_neg (by simp [h]), List.filterMap_nil]

theorem endReason_of_isLast (h : a.isLast = true) : endReason (a :: rest) = a.reason? := by
  rw [endReason, List.find?_cons_of_pos h, Option.bind_some]

theorem textsBeforeEnd_of_not_isLast (h : a.isLast = false) :
    textsBeforeEnd (a :: rest) = a.text?.toList ++ textsBeforeEnd rest := by
  rw [textsBeforeEnd, List.takeWhile_cons_of_pos (by simp [h]), textsBeforeEnd]
  cases htext : a.text? with
  | none => rw [List.filterMap_cons_none htext, Option.toList_none, List.nil_append]
  | some s => rw [List.filterMap_cons_some htext, Option.toList_some, List.singleton_append]

theorem endReason_of_not_isLast (h : a.isLast = false) :
    endReason (a :: rest) = endReason rest := by
  rw [endReason, List.find?_cons_of_neg (by simp [h]), endReason]

end Arrivals

/-- Each arrival either ends the reports or is passed on, as a message if it is a text. -/
theorem reports_eq (arrivals : List Arrival) :
    reports arrivals =
      (textsBeforeEnd arrivals).map .message ++ [.closed (endReason arrivals)] := by
  induction arrivals with
  | nil => rfl
  | cons a rest ih =>
      cases a with
      | text s =>
          rw [textsBeforeEnd_of_not_isLast rest rfl, endReason_of_not_isLast rest rfl, reports, ih]
          rfl
      | binary | ping | pong =>
          rw [textsBeforeEnd_of_not_isLast rest rfl, endReason_of_not_isLast rest rfl, reports, ih]
          rfl
      | close frame =>
          rw [textsBeforeEnd_of_isLast rest rfl, endReason_of_isLast rest rfl]
          cases frame <;> rfl
      | failure error =>
          rw [textsBeforeEnd_of_isLast rest rfl, endReason_of_isLast rest rfl]
          rfl

/-- Messages between an opening and an end keep the contract of a session. -/
theorem keepsContract_of_messages (texts : List String) (reason : Option String) :
    KeepsContract (.opened :: texts.map .message ++ [.closed reason]) := by
  have hmessage (e : StreamEvent) (he : e ∈ texts.map StreamEvent.message) :
      isEnd e = false ∧ e ≠ .opened := by
    obtain ⟨s, -, rfl⟩ := List.mem_map.mp he
    exact ⟨rfl, nofun⟩
  have hmessages : (texts.map StreamEvent.message).Pairwise
      fun earlier later => isEnd earlier = false ∧ later ≠ .opened :=
    List.pairwise_of_forall_mem_list fun e he later hlater =>
      ⟨(hmessage e he).1, (hmessage later hlater).2⟩
  refine List.pairwise_append.mpr ⟨List.pairwise_cons.mpr ⟨?_, hmessages⟩, ?_, ?_⟩
  · exact fun later hlater => ⟨rfl, (hmessage later hlater).2⟩
  · exact List.pairwise_singleton _ _
  · intro e he last hlast
    rw [List.mem_singleton.mp hlast]
    rcases List.mem_cons.mp he with rfl | he
    · exact ⟨rfl, nofun⟩
    · exact ⟨(hmessage e he).1, nofun⟩

/-- A receiver hears out a session, or the beginning of it. -/
theorem heard_cases (limit : Option Nat) (events : List StreamEvent) :
    heard limit events = (events, true) ∨
      (heard limit events).1 <+: events ∧ (heard limit events).2 = false := by
  cases limit with
  | none => exact Or.inl rfl
  | some n =>
      by_cases hlength : events.length < n
      · left
        rw [heard, List.take_of_length_le (Nat.le_of_lt hlength), decide_eq_true hlength]
      · exact Or.inr ⟨List.take_prefix n events, decide_eq_false hlength⟩

/-- **What a session reports.** A session that cannot connect reports one end, with what is said of
the failure. Any other reports the opening, each text that arrives before the stream ends, in order
and unchanged, and then one end, with the reason of the first arrival that ends the stream. Either
way it keeps the contract of a session, and a receiver hears all of it unless it leaves. One that
leaves hears the beginning, as many reports as it stays for. -/
theorem run_reports (outcome : Except String (List Arrival)) :
    (run outcome = match outcome with
      | .error error => [.closed (some ("connect failed: " ++ error))]
      | .ok arrivals =>
        .opened :: (textsBeforeEnd arrivals).map .message ++ [.closed (endReason arrivals)]) ∧
    KeepsContract (run outcome) ∧
    (∀ limit, heard limit (run outcome) = (run outcome, true) ∨
      (heard limit (run outcome)).1 <+: run outcome ∧
        (heard limit (run outcome)).2 = false) ∧
    heard none (run outcome) = (run outcome, true) ∧
    ∀ n, (heard (some n) (run outcome)).1.length = min n (run outcome).length ∧
      ((heard (some n) (run outcome)).2 = true ↔ (run outcome).length < n) := by
  have hreports : run outcome = match outcome with
      | .error error => [.closed (some ("connect failed: " ++ error))]
      | .ok arrivals =>
        .opened :: (textsBeforeEnd arrivals).map .message ++ [.closed (endReason arrivals)] := by
    cases outcome with
    | error error => rfl
    | ok arrivals => exact congrArg (StreamEvent.opened :: ·) (reports_eq arrivals)
  refine ⟨hreports, ?_, fun limit => heard_cases limit _, rfl,
    fun n => ⟨List.length_take, decide_eq_true_iff⟩⟩
  rw [hreports]
  cases outcome with
  | error error => exact List.pairwise_singleton _ _
  | ok arrivals => exact keepsContract_of_messages _ _

/-- Frames that are no text are passed over, and what comes after the closing is not read. -/
example : run (.ok [.text "a", .ping, .binary, .text "b", .close (some (1001, "away")), .text "c",
    .failure "reset"]) =
    [.opened, .message "a", .message "b", .closed (some "close frame 1001: away")] := by decide

end Session

end QuoteBoard.Feed
