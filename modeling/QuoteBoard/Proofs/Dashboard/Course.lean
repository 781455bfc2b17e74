/-
# Courses of a dialogue

A dialogue takes a course when its questions are answered one after the other. The
backend may answer anything. The engine answers as the events that it handles have it:
a command takes effect when it is handled, and a request is answered by an effect, at
once or when the fetch is complete that it has started. Between and during questions
the engine may handle other events. A question may also fail at any time.
-/

import QuoteBoard.Dashboard.Loader
import QuoteBoard.Proofs.Engine.Run

namespace QuoteBoard.Dashboard

open QuoteBoard.Engine (Answer Command Effect Event Instant Past RequestId stateAfter)

/-- A question with its answer, and what the engine had handled by the time that it was asked and
by the time that it was answered. -/
structure Exchange where
  ask : Ask
  answer : Except AskError ask.Reply
  before : Past
  after : Past

/-- What the engine handles while a dialogue waits is all of an allowed kind. -/
def Meanwhile (allowed : Event → Prop) (before after : Past) : Prop :=
  ∃ newer : Past, after = newer ++ before ∧ ∀ p ∈ newer, allowed p.2

section Relations

variable (period : Nat) (started : Instant) (allowed : Event → Prop)

/-- The engine answers a request: at once, or when a fetch is complete that it has started. -/
inductive Replied (request : RequestId) (c : Command) (before : Past) : Answer → Past → Prop
  | atOnce (now : Instant) (answer : Answer)
      (hreply : .reply request answer ∈
        ((stateAfter period started before).step now (.command c)).2) :
      Replied request c before answer ((now, .command c) :: before)
  | fetched (now later : Instant) (answer : Answer) (asker : Engine.Asker) (keys : List Key)
      (found : PriceMap) (during : Past)
      (hstart : .startFetch asker keys ∈
        ((stateAfter period started before).step now (.command c)).2)
      (hduring : Meanwhile allowed ((now, .command c) :: before) during)
      (hreply : .reply request answer ∈
        ((stateAfter period started during).step later (.fetched asker found)).2) :
      Replied request c before answer ((later, .fetched asker found) :: during)

/-- A question is answered. -/
inductive Answered (before : Past) : (a : Ask) → Except AskError a.Reply → Past → Prop
  | rows (user : String) (table : Table) (answer : Except AskError (List TradeRow)) :
      Answered before (.rows user table) answer before
  | contract (identity : Identity) (answer : Except AskError (Option Backend.Contract)) :
      Answered before (.contract identity) answer before
  | replaceRows (now : Instant) (scope : String) (rows : List Binding) :
      Answered before (.replaceRows scope rows) (.ok ())
        ((now, .command (.replaceRows scope rows)) :: before)
  | attach (now : Instant) (row : RowId) (scrip : Option String) (key : Key) :
      Answered before (.attach row scrip key) (.ok ())
        ((now, .command (.attach row scrip key)) :: before)
  | prices (request : RequestId) (keys : List Key) (found : PriceMap) (after : Past)
      (hreplied : Replied period started allowed request (.prices request keys) before
        (.prices found) after) :
      Answered before (.prices keys) (.ok found) after
  | price (request : RequestId) (key : Key) (found : Option Binary64) (after : Past)
      (hreplied : Replied period started allowed request (.price request key) before
        (.price found) after) :
      Answered before (.price key) (.ok found) after
  | unpriced (request : RequestId) (scope : String) (ids : List RowId) (after : Past)
      (hreplied : Replied period started allowed request (.unpriced request scope) before
        (.rows ids) after) :
      Answered before (.unpriced scope) (.ok ids) after
  | failed (a : Ask) (e : AskError) : Answered before a (.error e) before

/-- A dialogue takes a course from its beginning to its result. -/
inductive Course {α : Type} : Dialogue α → Past → List Exchange → Past → α → Prop
  | finished (result : α) (past : Past) : Course (.finished result) past [] past result
  | meanwhile {d : Dialogue α} {past final : Past} {talk : List Exchange} {result : α}
      (now : Instant) (e : Event) (hallowed : allowed e)
      (rest : Course d ((now, e) :: past) talk final result) : Course d past talk final result
  | exchange {a : Ask} {next : Except AskError a.Reply → Dialogue α} {before after final : Past}
      {talk : List Exchange} {result : α} (answer : Except AskError a.Reply)
      (hanswered : Answered period started allowed before a answer after)
      (rest : Course (next answer) after talk final result) :
      Course (.ask a next) before (⟨a, answer, before, after⟩ :: talk) final result

end Relations

variable {period : Nat} {started : Instant} {allowed : Event → Prop}

namespace Meanwhile

variable {before during after : Past}

theorem refl (past : Past) : Meanwhile allowed past past := ⟨[], rfl, by simp⟩

theorem cons (h : Meanwhile allowed before after) (now : Instant) {e : Event} (he : allowed e) :
    Meanwhile allowed before ((now, e) :: after) := by
  obtain ⟨newer, rfl, hnewer⟩ := h
  refine ⟨(now, e) :: newer, rfl, ?_⟩
  intro p hp
  rcases List.mem_cons.mp hp with rfl | hp
  · exact he
  · exact hnewer p hp

theorem trans (h : Meanwhile allowed before during) (h' : Meanwhile allowed during after) :
    Meanwhile allowed before after := by
  obtain ⟨first, rfl, hfirst⟩ := h
  obtain ⟨second, rfl, hsecond⟩ := h'
  refine ⟨second ++ first, (List.append_assoc ..).symm, ?_⟩
  intro p hp
  rcases List.mem_append.mp hp with hp | hp
  · exact hsecond p hp
  · exact hfirst p hp

theorem mono {wider : Event → Prop} (h : Meanwhile allowed before after)
    (hwider : ∀ e, allowed e → wider e) : Meanwhile wider before after := by
  obtain ⟨newer, rfl, hnewer⟩ := h
  exact ⟨newer, rfl, fun p hp => hwider p.2 (hnewer p hp)⟩

theorem suffix (h : Meanwhile allowed before after) : before <:+ after := by
  obtain ⟨newer, rfl, -⟩ := h
  exact List.suffix_append newer before

end Meanwhile

/-! ## Answers of the engine -/

/-- To answer a request the engine handles the command, and perhaps a fetch that it has started. -/
theorem Replied.meanwhile {own : Event → Prop} {request : RequestId} {c : Command} {answer : Answer}
    {before after : Past} (h : Replied period started allowed request c before answer after)
    (hcommand : own (.command c)) (hfetched : ∀ asker found, own (.fetched asker found)) :
    Meanwhile (fun e => allowed e ∨ own e) before after := by
  have hcommanded (now : Instant) :
      Meanwhile (fun e => allowed e ∨ own e) before ((now, .command c) :: before) :=
    (Meanwhile.refl before).cons now (Or.inr hcommand)
  cases h with
  | atOnce now answer hreply => exact hcommanded now
  | fetched now later answer asker keys found during hstart hduring hreply =>
      have hwaiting := hduring.mono fun e he => (Or.inl he : allowed e ∨ own e)
      exact ((hcommanded now).trans hwaiting).cons later (Or.inr (hfetched asker found))

/-- What the engine had handled before a question it has handled after it. -/
theorem Answered.suffix {a : Ask} {answer : Except AskError a.Reply} {before after : Past}
    (h : Answered period started allowed before a answer after) : before <:+ after := by
  have hreplied {request : RequestId} {c : Command} {answer : Answer} {last : Past}
      (h : Replied period started allowed request c before answer last) : before <:+ last := by
    have hany : Meanwhile (fun e => allowed e ∨ True) before last :=
      h.meanwhile trivial fun _ _ => trivial
    exact hany.suffix
  cases h with
  | rows | contract | failed => exact List.suffix_refl before
  | replaceRows | attach => exact List.suffix_cons _ before
  | prices _ _ _ _ h => exact hreplied h
  | price _ _ _ _ h => exact hreplied h
  | unpriced _ _ _ _ h => exact hreplied h

namespace Answered

variable (period : Nat) (started : Instant) (allowed : Event → Prop)
variable (before : Past) (request : RequestId) (now later : Instant)

/-- While the stream is not open, a fetch answers a request for prices with what it has found. -/
theorem prices_of_fetch (keys : List Key) (found : PriceMap)
    (hclosed : (stateAfter period started before).connection.isOpen = false) :
    Answered period started allowed before (.prices keys) (.ok found)
      ((later, .fetched (.prices request) found) :: (now, .command (.prices request keys)) ::
        before) := by
  have hstart : .startFetch (.prices request) keys ∈
      ((stateAfter period started before).step now (.command (.prices request keys))).2 := by
    change _ ∈ [(stateAfter period started before).askPrices request keys]
    rw [Engine.State.askPrices, hclosed]
    exact List.mem_cons_self
  apply Answered.prices request
  apply Replied.fetched now later _ _ keys found _ hstart (.refl _)
  exact List.mem_append_right _ List.mem_cons_self

/-- While the stream is not open, a fetch answers a request for a price that is not known. -/
theorem price_of_fetch (key : Key) (found : PriceMap)
    (hclosed : (stateAfter period started before).connection.isOpen = false)
    (hunknown : (stateAfter period started before).cache.get? key = none) :
    Answered period started allowed before (.price key) (.ok (found.get? key))
      ((later, .fetched (.price request key) found) :: (now, .command (.price request key)) ::
        before) := by
  have hstart : .startFetch (.price request key) [key] ∈
      ((stateAfter period started before).step now (.command (.price request key))).2 := by
    change _ ∈ [(stateAfter period started before).askPrice request key]
    rw [Engine.State.askPrice, hunknown, hclosed]
    exact List.mem_cons_self
  apply Answered.price request
  apply Replied.fetched now later _ _ [key] found _ hstart (.refl _)
  exact List.mem_append_right _ List.mem_cons_self

/-- The rows without a price are listed at once. -/
theorem unpriced_now (scope : String) :
    Answered period started allowed before (.unpriced scope)
      (.ok ((stateAfter period started before).board.unpriced scope))
      ((now, .command (.unpriced request scope)) :: before) :=
  .unpriced request scope _ _ (.atOnce now _ List.mem_cons_self)

end Answered

/-! ## Courses and their parts -/

namespace Course

variable {α β : Type} {past final : Past} {talk : List Exchange}

/-- Other events may come first. -/
theorem after_meanwhile {d : Dialogue α} {during : Past} {result : α}
    (h : Course period started allowed d during talk final result)
    (hduring : Meanwhile allowed past during) :
    Course period started allowed d past talk final result := by
  obtain ⟨newer, rfl, hnewer⟩ := hduring
  induction newer with
  | nil => exact h
  | cons p newer ih =>
      have hearlier : Course period started allowed d (newer ++ past) talk final result :=
        .meanwhile p.1 p.2 (hnewer p List.mem_cons_self) h
      exact ih (fun q hq => hnewer q (List.mem_cons_of_mem _ hq)) hearlier

/-- Other events may come last. -/
theorem before_meanwhile {d : Dialogue α} {later : Past} {result : α}
    (h : Course period started allowed d past talk final result)
    (hlater : Meanwhile allowed final later) :
    Course period started allowed d past talk later result := by
  induction h with
  | finished result past => exact (Course.finished result later).after_meanwhile hlater
  | meanwhile now e hallowed rest ih => exact .meanwhile now e hallowed (ih hlater)
  | exchange answer hanswered rest ih => exact .exchange answer hanswered (ih hlater)

/-- What the engine had handled before a course it has handled after it. -/
theorem suffix {d : Dialogue α} {result : α}
    (h : Course period started allowed d past talk final result) : past <:+ final := by
  induction h with
  | finished => exact List.suffix_refl _
  | meanwhile now e hallowed rest ih => exact (List.suffix_cons _ _).trans ih
  | exchange answer hanswered rest ih => exact hanswered.suffix.trans ih

/-- A second dialogue goes on where the first one ends. -/
theorem bind {d : Dialogue α} {next : α → Dialogue β} {middle : Past} {first second : List Exchange}
    {value : α} {result : β} (h : Course period started allowed d past first middle value)
    (hnext : Course period started allowed (next value) middle second final result) :
    Course period started allowed (d.bind next) past (first ++ second) final result := by
  induction h with
  | finished => exact hnext
  | meanwhile now e hallowed rest ih => exact .meanwhile now e hallowed (ih hnext)
  | exchange answer hanswered rest ih => exact .exchange answer hanswered (ih hnext)

/-- A finished dialogue asks nothing more. -/
theorem finished_inv {value result : α}
    (h : Course period started allowed (.finished value) past talk final result) :
    result = value ∧ talk = [] ∧ Meanwhile allowed past final := by
  generalize hd : Dialogue.finished value = d at h
  induction h with
  | finished => cases hd; exact ⟨rfl, rfl, .refl _⟩
  | meanwhile now e hallowed rest ih =>
      obtain ⟨hresult, htalk, hfinal⟩ := ih hd
      exact ⟨hresult, htalk, ((Meanwhile.refl _).cons now hallowed).trans hfinal⟩
  | exchange => cases hd

/-- A dialogue that asks something goes on with the answer. -/
theorem ask_inv {a : Ask} {next : Except AskError a.Reply → Dialogue α} {result : α}
    (h : Course period started allowed (.ask a next) past talk final result) :
    ∃ answer before after rest, Meanwhile allowed past before ∧
      Answered period started allowed before a answer after ∧
      talk = ⟨a, answer, before, after⟩ :: rest ∧
      Course period started allowed (next answer) after rest final result := by
  generalize hd : Dialogue.ask a next = d at h
  induction h with
  | finished => cases hd
  | meanwhile now e hallowed rest ih =>
      obtain ⟨answer, before, after, rest, hbefore, hanswered, htalk, hrest⟩ := ih hd
      exact ⟨answer, before, after, rest, ((Meanwhile.refl _).cons now hallowed).trans hbefore,
        hanswered, htalk, hrest⟩
  | exchange answer hanswered rest =>
      cases hd
      exact ⟨answer, _, _, _, .refl _, hanswered, rfl, rest⟩

/-- A composed dialogue takes the course of its first part, and then that of the second. -/
theorem bind_inv {d : Dialogue α} {next : α → Dialogue β} {result : β}
    (h : Course period started allowed (d.bind next) past talk final result) :
    ∃ value first middle second, talk = first ++ second ∧
      Course period started allowed d past first middle value ∧
      Course period started allowed (next value) middle second final result := by
  induction d generalizing past talk with
  | finished value => exact ⟨value, [], past, talk, rfl, .finished value past, h⟩
  | ask a answered ih =>
      obtain ⟨answer, before, after, rest, hbefore, hanswered, rfl, hrest⟩ := ask_inv h
      obtain ⟨value, first, middle, second, rfl, hfirst, hsecond⟩ := ih answer hrest
      refine ⟨value, ⟨a, answer, before, after⟩ :: first, middle, second, rfl, ?_, hsecond⟩
      exact (exchange answer hanswered hfirst).after_meanwhile hbefore

end Course

end QuoteBoard.Dashboard
