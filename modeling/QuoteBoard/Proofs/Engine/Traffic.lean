/-
# What a move can lead to

A move of the traffic leads from one state to another in one of eight ways (`Leads`). What
holds at the start and is kept by each of them holds after every run, whatever the order of
calls, reports, completions and turns.
-/

import QuoteBoard.Engine.Traffic
import QuoteBoard.Proofs.Engine.Answers

namespace QuoteBoard.Engine

open QuoteBoard.Dashboard (AskError)
open QuoteBoard.Feed (StreamEvent)

/-! ## The next event -/

/-- A running engine handles what is in its inbox, and with an empty inbox a tick that is due. -/
theorem Loop.next?_cases {l : Loop} {now : Instant} {e : Event} {rest : Inbox}
    (h : l.next? now = some (e, rest)) :
    l.running = true ∧ (l.inbox.next? = some (e, rest) ∨
      l.inbox.next? = none ∧ e = .pollTick ∧ rest = .empty ∧ l.engine.pollIsDue now = true) := by
  unfold Loop.next? at h
  cases hrunning : l.running with
  | false => simp [hrunning] at h
  | true =>
      refine ⟨rfl, ?_⟩
      cases hinbox : l.inbox.next? with
      | some next =>
          rw [hrunning, hinbox] at h
          exact Or.inl h
      | none =>
          cases hdue : l.engine.pollIsDue now with
          | false => simp [hrunning, hinbox, hdue] at h
          | true =>
              simp only [hrunning, hinbox, hdue, if_true, Option.some.injEq, Prod.mk.injEq] at h
              exact Or.inr ⟨rfl, h.1.symm, h.2.symm, rfl⟩

/-- The complete fetch that is handled. -/
def Event.fetched? : Event → Option (Asker × PriceMap)
  | .fetched asker found => some (asker, found)
  | .command _ | .stream _ | .pollTick => none

/-- The command that is handled. -/
def Event.command? : Event → Option Command
  | .command c => some c
  | .fetched .. | .stream _ | .pollTick => none

/-- What a handled event takes out of an inbox. -/
structure Inbox.Yields (i : Inbox) (e : Event) (rest : Inbox) : Prop where
  fetched : i.fetched = e.fetched?.toList ++ rest.fetched
  commands : i.commands = e.command?.toList ++ rest.commands
  size : rest.size = i.size - 1

theorem Inbox.yields_of_next? {i : Inbox} {e : Event} {rest : Inbox}
    (h : i.next? = some (e, rest)) : i.Yields e rest ∧ e ≠ .pollTick := by
  obtain ⟨stream, fetched, commands⟩ := i
  cases stream with
  | cons x more =>
      cases h
      exact ⟨⟨rfl, rfl, by simp only [Inbox.size, List.length_cons]; omega⟩, nofun⟩
  | nil =>
      cases fetched with
      | cons x more =>
          cases h
          exact ⟨⟨rfl, rfl, by simp only [Inbox.size, List.length_cons]; omega⟩, nofun⟩
      | nil =>
          cases commands with
          | cons x more =>
              cases h
              exact ⟨⟨rfl, rfl, by simp only [Inbox.size, List.length_cons]; omega⟩, nofun⟩
          | nil => cases h

theorem Inbox.eq_empty_of_next? {i : Inbox} (h : i.next? = none) : i = .empty := by
  obtain ⟨stream, fetched, commands⟩ := i
  cases stream <;> cases fetched <;> cases commands <;> first | rfl | cases h

theorem Inbox.eq_empty_of_size {i : Inbox} (h : i.size = 0) : i = .empty := by
  obtain ⟨stream, fetched, commands⟩ := i
  simp only [Inbox.size, Nat.add_eq_zero_iff, List.length_eq_zero_iff] at h
  obtain ⟨⟨rfl, rfl⟩, rfl⟩ := h
  rfl

theorem Loop.yields_of_next? {l : Loop} {now : Instant} {e : Event} {rest : Inbox}
    (h : l.next? now = some (e, rest)) : l.inbox.Yields e rest := by
  rcases (Loop.next?_cases h).2 with hnext | ⟨hnone, rfl, rfl, -⟩
  · exact (Inbox.yields_of_next? hnext).1
  · rw [Inbox.eq_empty_of_next? hnone]
    exact ⟨rfl, rfl, rfl⟩

theorem Loop.pollIsDue_of_next? {l : Loop} {now : Instant} {rest : Inbox}
    (h : l.next? now = some (.pollTick, rest)) : l.engine.pollIsDue now = true := by
  rcases (Loop.next?_cases h).2 with hnext | ⟨-, -, -, hdue⟩
  · exact absurd rfl (Inbox.yields_of_next? hnext).2
  · exact hdue

/-! ## Calls, fetches and turns -/

theorem Command.request?_named (request : RequestId) (c : Command) :
    (c.named request).request? = c.request?.map fun _ => request := by
  cases c <;> rfl

namespace Traffic

variable (period : Nat) (started : Instant) (t : Traffic)

/-- The answers to a request. -/
def repliesTo (request : RequestId) : List (Except AskError Answer) :=
  (t.replies.filter (·.1 = request)).map (·.2)

/-- The requests whose fetches are under way. -/
def fetching : List RequestId := t.underway.filterMap (·.1.request?)

/-- The requests that wait for an answer. -/
def waiting : List RequestId := t.loop.inbox.requests ++ t.fetching

/-- A call has asked for an answer under this name. -/
def Asks (request : RequestId) (c : Command) : Prop := c ∈ t.calls ∧ c.request? = some request

/-- What a move can lead to. -/
inductive Leads : Traffic → Prop
  | idle : Leads t
  | called (c : Command) (hrunning : t.loop.running = true) :
      Leads { t with
        loop := { t.loop with inbox := { t.loop.inbox with
          commands := t.loop.inbox.commands ++ [c.named t.calls.length] } }
        calls := t.calls ++ [c.named t.calls.length] }
  | refused (c : Command) (hstopped : t.loop.running = false) :
      Leads { t with
        calls := t.calls ++ [c.named t.calls.length]
        replies := t.replies ++
          (c.named t.calls.length).request?.toList.map (·, .error .stopped) }
  | reported (e : StreamEvent) (hrunning : t.loop.running = true) :
      Leads { t with
        loop := { t.loop with inbox := { t.loop.inbox with
          stream := t.loop.inbox.stream ++ [e] } } }
  | completed (position : Nat) (asker : Asker) (keys : List Key) (found : PriceMap)
      (hrunning : t.loop.running = true) (hfetch : t.underway[position]? = some (asker, keys)) :
      Leads { t with
        loop := { t.loop with inbox := { t.loop.inbox with
          fetched := t.loop.inbox.fetched ++ [(asker, found)] } }
        underway := t.underway.eraseIdx position
        completed := t.completed ++ [(asker, found)] }
  | lost (position : Nat) (asker : Asker) (keys : List Key)
      (hstopped : t.loop.running = false) (hfetch : t.underway[position]? = some (asker, keys)) :
      Leads { t with
        underway := t.underway.eraseIdx position
        replies := t.replies ++ asker.request?.toList.map (·, .error .dropped) }
  | handled (now : Instant) (e : Event) (rest : Inbox) (hrunning : t.loop.running = true)
      (hnext : t.loop.next? now = some (e, rest)) :
      Leads { t with
        loop := { t.loop with engine := (t.loop.engine.step now e).1, inbox := rest }
        past := (now, e) :: t.past
        replies := t.replies ++ (t.loop.engine.reply? e).toList.map fun r => (r.1, .ok r.2)
        started := t.started ++ (t.loop.engine.fetch? e).toList
        underway := t.underway ++ (t.loop.engine.fetch? e).toList }
  | stopped :
      Leads { t with
        loop := { t.loop with inbox := .empty, running := false }
        replies := t.replies ++ t.loop.inbox.requests.map (·, .error .dropped) }

variable {t}

/-- **All that a move can do.** -/
theorem leads_take (m : Move) : t.Leads (t.take m) := by
  cases m with
  | call c =>
      cases hrunning : t.loop.running with
      | true =>
          have h := Leads.called c hrunning
          simpa only [take, call, Loop.send, hrunning, if_true] using h
      | false =>
          have h := Leads.refused c hrunning
          simpa [take, call, Loop.send, hrunning, fail] using h
  | report e =>
      cases hrunning : t.loop.running with
      | true =>
          have h := Leads.reported e hrunning
          simpa only [take, report, Loop.report, hrunning, if_true] using h
      | false => simpa [take, report, Loop.report, hrunning] using Leads.idle
  | finish position found =>
      cases hfetch : t.underway[position]? with
      | none => simpa [take, finish, hfetch] using Leads.idle
      | some fetch =>
          obtain ⟨asker, keys⟩ := fetch
          cases hrunning : t.loop.running with
          | true =>
              have h := Leads.completed position asker keys found hrunning hfetch
              simpa [take, finish, Loop.complete, hrunning, hfetch] using h
          | false =>
              have h := Leads.lost position asker keys hrunning hfetch
              simpa [take, finish, Loop.complete, hrunning, hfetch, fail] using h
  | turn now =>
      cases hnext : t.loop.next? now with
      | none => simpa [take, turn, hnext] using Leads.idle
      | some next =>
          obtain ⟨e, rest⟩ := next
          have h := Leads.handled now e rest (Loop.next?_cases hnext).1 hnext
          obtain ⟨hreplies, hfetches⟩ := replies_and_fetches_step t.loop.engine now e
          rw [← hreplies, ← hfetches] at h
          simpa [take, turn, hnext, Loop.handle] using h
  | stop => exact .stopped

variable (t) in
/-- Some run leads to this. -/
def Reachable : Prop := ∃ moves, t = after period started moves

/-- What holds at the start and is kept by whatever a move can do holds after every run. -/
@[elab_as_elim]
theorem run_induction {motive : Traffic → Prop} (hinitial : motive (initial period started))
    (hleads : ∀ t t', Reachable period started t → Leads t t' → motive t → motive t') (t : Traffic)
    (h : Reachable period started t) : motive t := by
  obtain ⟨moves, rfl⟩ := h
  induction moves with
  | nil => exact hinitial
  | cons m earlier ih => exact hleads _ _ ⟨earlier, rfl⟩ (leads_take m) ih

/-- The engine is what its past has made of it. -/
theorem engine_eq_stateAfter (h : Reachable period started t) :
    t.loop.engine = stateAfter period started t.past := by
  refine run_induction period started rfl (fun t t' _ hleads ih => ?_) t h
  cases hleads with
  | handled now e rest hrunning hnext =>
      change (t.loop.engine.step now e).1 = _
      rw [ih]
      rfl
  | idle | called | refused | reported | completed | lost | stopped => exact ih

end Traffic

end QuoteBoard.Engine
