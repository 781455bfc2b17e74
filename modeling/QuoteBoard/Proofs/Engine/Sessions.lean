/-
# Sessions of the stream

What sessions report carries no number, so the engine cannot tell an old session from a new
one. It need not: as long as every session keeps to its contract, and reports are handled in
the order in which they came, a session is started only when the end of every earlier one
has been handled. So one session is live at most, and the connection says how far it is.
-/

import QuoteBoard.Proofs.Engine.Connection
import QuoteBoard.Proofs.Engine.Order
import Mathlib.Data.List.Induction

namespace QuoteBoard.Engine

open QuoteBoard.Feed (Connection StreamEvent)

/-- A report of the stream, with the session that it is from. Sessions are numbered in the order
in which they were started. -/
structure Report where
  session : Nat
  event : StreamEvent

/-- The report that ends a session. -/
def isEnd : StreamEvent → Bool
  | .closed _ => true
  | .opened | .message _ => false

@[simp] theorem isEnd_opened : isEnd .opened = false := rfl

@[simp] theorem isEnd_message (text : String) : isEnd (.message text) = false := rfl

@[simp] theorem isEnd_closed (reason : Option String) : isEnd (.closed reason) = true := rfl

/-- The contract of a session: a report that another one follows is not the end, and one that
follows another is not the opening. So the opening comes first, if it comes, and the end last. -/
def KeepsContract (events : List StreamEvent) : Prop :=
  events.Pairwise fun earlier later => isEnd earlier = false ∧ later ≠ .opened

instance (events : List StreamEvent) : Decidable (KeepsContract events) :=
  inferInstanceAs (Decidable (events.Pairwise _))

/-- What a session has reported, in order. -/
def reportsOf (session : Nat) (reports : List Report) : List StreamEvent :=
  (reports.filter (·.session = session)).map Report.event

/-- The end of a session is among the reports. -/
def HasEnded (reports : List Report) (session : Nat) : Prop :=
  ∃ reason, ⟨session, .closed reason⟩ ∈ reports

/-- The opening of the stream by a session is among the reports. -/
def HasOpened (reports : List Report) (session : Nat) : Prop := ⟨session, .opened⟩ ∈ reports

/-- The number of sessions that were started. -/
def sessionsAfter (period : Nat) (started : Instant) (past : Past) : Nat :=
  (effectsAfter period started past).countP Effect.isStart

/-- The report of the stream that is handled. -/
def Event.stream? : Event → Option StreamEvent
  | .stream e => some e
  | .fetched .. | .command _ | .pollTick => none

/-- What an engine has handled of the stream, in order. -/
def followed (past : Past) : List StreamEvent := (past.filterMap (·.2.stream?)).reverse

/-- The reports that an engine has handled: those that came first. -/
def handledReports (past : Past) (reports : List Report) : List Report :=
  reports.take (followed past).length

/-- A run in which every report of the stream is from a session that the engine has started and
that keeps to its contract. The reports are listed in the order in which they came. -/
inductive Conducted (period : Nat) (started : Instant) : Traffic → List Report → Prop
  | initial : Conducted period started (Traffic.initial period started) []
  | report {t : Traffic} {reports : List Report} (session : Nat) (e : StreamEvent)
      (h : Conducted period started t reports)
      (hstarted : session < sessionsAfter period started t.past)
      (hcontract : KeepsContract (reportsOf session reports ++ [e])) :
      Conducted period started (t.report e) (reports ++ [⟨session, e⟩])
  | move {t : Traffic} {reports : List Report} (m : Move) (h : Conducted period started t reports)
      (hother : ∀ e, m ≠ .report e) : Conducted period started (t.take m) reports

/-! ## Reports -/

theorem mem_reportsOf_iff {session : Nat} {reports : List Report} {e : StreamEvent} :
    e ∈ reportsOf session reports ↔ ⟨session, e⟩ ∈ reports := by
  simp only [reportsOf, List.mem_map, List.mem_filter, decide_eq_true_eq]
  constructor
  · rintro ⟨r, ⟨hr, rfl⟩, rfl⟩
    exact hr
  · exact fun hr => ⟨_, ⟨hr, rfl⟩, rfl⟩

theorem reportsOf_append (session : Nat) (first second : List Report) :
    reportsOf session (first ++ second) = reportsOf session first ++ reportsOf session second := by
  simp [reportsOf]

theorem reportsOf_singleton (session : Nat) (r : Report) :
    reportsOf session [r] = if r.session = session then [r.event] else [] := by
  unfold reportsOf
  by_cases hr : r.session = session <;> simp [hr]

theorem reportsOf_eq_nil {session : Nat} {reports : List Report}
    (h : ∀ r ∈ reports, r.session ≠ session) : reportsOf session reports = [] := by
  rw [reportsOf, List.map_eq_nil_iff, List.filter_eq_nil_iff]
  exact fun r hr => by simpa using h r hr

theorem hasEnded_iff {reports : List Report} {session : Nat} :
    HasEnded reports session ↔ ∃ e ∈ reportsOf session reports, isEnd e = true := by
  constructor
  · rintro ⟨reason, hreason⟩
    exact ⟨_, mem_reportsOf_iff.mpr hreason, rfl⟩
  · rintro ⟨e, he, hend⟩
    cases e with
    | closed reason => exact ⟨reason, mem_reportsOf_iff.mp he⟩
    | opened | message => cases hend

/-- Nothing comes after the end of a session. -/
theorem KeepsContract.not_isEnd {before after : List StreamEvent} {e : StreamEvent}
    (h : KeepsContract (before ++ e :: after)) : ∀ x ∈ before, isEnd x = false :=
  fun x hx => ((List.pairwise_append.mp h).2.2 x hx e List.mem_cons_self).1

/-- The connection after a report of the stream. -/
def follow (c : Connection) : StreamEvent → Connection
  | .opened => .opened
  | .message _ => c
  | .closed _ => .disconnected

theorem connectionAfter_stream (s : State) (e : StreamEvent) :
    s.connectionAfter (.stream e) = follow s.connection e := by
  cases e <;> rfl

/-- Apart from reports only the start of a session moves the connection. -/
theorem connectionAfter_of_not_starts {s : State} {e : Event} (hevent : e.stream? = none)
    (hstarts : s.starts e = false) : s.connectionAfter e = s.connection := by
  cases e with
  | stream => cases hevent
  | fetched | pollTick => rfl
  | command c =>
      cases c with
      | startStream =>
          cases hconnection : s.connection <;>
            simp [State.starts, State.connectionAfter, Connection.next, hconnection] at hstarts ⊢
      | replaceRows | attach | prices | price | unpriced => rfl

theorem starts_iff {s : State} {e : Event} :
    s.starts e = true ↔ e = .command .startStream ∧ s.connection = .disconnected := by
  constructor
  · intro hstarts
    cases e with
    | stream | fetched | pollTick => cases hstarts
    | command c =>
        cases c with
        | startStream => exact ⟨rfl, of_decide_eq_true hstarts⟩
        | replaceRows | attach | prices | price | unpriced => cases hstarts
  · rintro ⟨rfl, hdown⟩
    exact decide_eq_true hdown

/-- The connection that the reports of a session lead to. -/
def standing (events : List StreamEvent) : Connection := events.foldl follow .connecting

theorem standing_concat (events : List StreamEvent) (e : StreamEvent) :
    standing (events ++ [e]) = follow (standing events) e := by
  rw [standing, List.foldl_append]
  rfl

/-- Where a session stands: it has ended, or its opening has been reported or has not. -/
theorem KeepsContract.standing {events : List StreamEvent} (h : KeepsContract events) :
    (standing events = .disconnected ↔ ∃ e ∈ events, isEnd e = true) ∧
      (standing events = .opened ↔ (∀ e ∈ events, isEnd e = false) ∧ .opened ∈ events) := by
  induction events using List.reverseRecOn with
  | nil => decide
  | append_singleton events e ih =>
      have hbefore := h.not_isEnd
      obtain ⟨hended, hopened⟩ := ih (List.pairwise_append.mp h).1
      simp only [standing_concat, List.mem_append, List.mem_singleton, or_imp, forall_and,
        forall_eq, or_and_right, exists_or, exists_eq_left]
      cases e with
      | opened => simpa [follow, isEnd_opened] using hbefore
      | message text => simpa [follow, isEnd_message] using ⟨hended, hopened⟩
      | closed reason => simp [follow, isEnd_closed]

/-! ## Moves -/

theorem Inbox.stream_of_next? {i : Inbox} {e : Event} {rest : Inbox}
    (h : i.next? = some (e, rest)) : i.stream = e.stream?.toList ++ rest.stream := by
  obtain ⟨stream, fetched, commands⟩ := i
  cases stream with
  | cons x more =>
      cases h
      rfl
  | nil => cases fetched <;> cases commands <;> cases h <;> rfl

theorem Loop.stream_of_next? {l : Loop} {now : Instant} {e : Event} {rest : Inbox}
    (h : l.next? now = some (e, rest)) : l.inbox.stream = e.stream?.toList ++ rest.stream := by
  rcases (Loop.next?_cases h).2 with hnext | ⟨hnone, rfl, rfl, -⟩
  · exact Inbox.stream_of_next? hnext
  · rw [Inbox.eq_empty_of_next? hnone]
    rfl

namespace Traffic

variable {period : Nat} {started : Instant} {t : Traffic}

/-- What a move that is no report leaves of the past and of the reports that wait. -/
inductive Quiet (t t' : Traffic) : Prop
  | idle (hpast : t'.past = t.past) (hstream : t'.loop.running = true →
      t.loop.running = true ∧ t'.loop.inbox.stream = t.loop.inbox.stream)
  | handled (now : Instant) (e : Event) (rest : Inbox) (hrunning : t.loop.running = true)
      (hnext : t.loop.next? now = some (e, rest)) (hpast : t'.past = (now, e) :: t.past)
      (hstream : t'.loop.inbox.stream = rest.stream)

theorem quiet_take {m : Move} (hother : ∀ e, m ≠ .report e) : Quiet t (t.take m) := by
  cases m with
  | report e => exact absurd rfl (hother e)
  | call c =>
      cases hrunning : t.loop.running <;>
        exact .idle (by simp [take, call, Loop.send, hrunning, fail])
          (by simp [take, call, Loop.send, hrunning, fail])
  | finish position found =>
      cases hfetch : t.underway[position]? with
      | none => exact .idle (by simp [take, finish, hfetch]) (by simp [take, finish, hfetch])
      | some fetch =>
          cases hrunning : t.loop.running <;>
            exact .idle (by simp [take, finish, hfetch, Loop.complete, hrunning, fail])
              (by simp [take, finish, hfetch, Loop.complete, hrunning, fail])
  | turn now =>
      cases hnext : t.loop.next? now with
      | none => exact .idle (by simp [take, turn, hnext]) (by simp [take, turn, hnext])
      | some next =>
          obtain ⟨e, rest⟩ := next
          exact .handled now e rest (Loop.next?_cases hnext).1 hnext
            (by simp [take, turn, hnext, Loop.handle]) (by simp [take, turn, hnext, Loop.handle])
  | stop => exact .idle rfl fun hrunning => absurd hrunning Bool.false_ne_true

end Traffic

/-! ## The account of a run -/

section Account

variable {period : Nat} {started : Instant} {t t' : Traffic} {reports : List Report}

theorem sessionsAfter_cons (now : Instant) (e : Event) (earlier : Past) :
    sessionsAfter period started ((now, e) :: earlier) =
      sessionsAfter period started earlier +
        ((stateAfter period started earlier).starts e).toNat := by
  rw [sessionsAfter, effectsAfter, List.countP_append, countP_isStart_step]
  rfl

theorem followed_cons (now : Instant) (e : Event) (earlier : Past) :
    followed ((now, e) :: earlier) = followed earlier ++ e.stream?.toList :=
  reverse_filterMap_cons (fun p : Instant × Event => p.2.stream?) (now, e) earlier

/-- The connection that the reports of the latest of so many sessions lead to. -/
def latestStanding : Nat → List Report → Connection
  | 0, _ => .disconnected
  | latest + 1, handled => standing (reportsOf latest handled)

variable (period started) in
/-- The engine knows where its sessions stand: of all but the latest it has handled the end, and
its connection is what it has handled of the latest. -/
structure UpToDate (past : Past) (reports : List Report) : Prop where
  ended : ∀ session, session + 1 < sessionsAfter period started past →
    HasEnded (handledReports past reports) session
  connection : (stateAfter period started past).connection =
    latestStanding (sessionsAfter period started past) (handledReports past reports)

variable (period started) in
/-- What is known of sessions and reports in a run whose sessions keep to their contracts. -/
structure Account (t : Traffic) (reports : List Report) : Prop
    extends UpToDate period started t.past reports where
  reachable : t.Reachable period started
  known : ∀ r ∈ reports, r.session < sessionsAfter period started t.past
  contract : ∀ session, KeepsContract (reportsOf session reports)
  inOrder : (handledReports t.past reports).map Report.event = followed t.past
  waiting : t.loop.running = true →
    reports.map Report.event = followed t.past ++ t.loop.inbox.stream

namespace Account

/-- The report that is handled next is the first that has not been handled. -/
theorem next_report (h : Account period started t reports) (hrunning : t.loop.running = true)
    {e : StreamEvent} {more : List StreamEvent} (hstream : t.loop.inbox.stream = e :: more) :
    ∃ r tail, r.event = e ∧ reports = handledReports t.past reports ++ r :: tail := by
  have hwaiting := h.waiting hrunning
  rw [hstream] at hwaiting
  obtain ⟨front, back, hreports, hfront, hback⟩ := List.map_eq_append_iff.mp hwaiting
  obtain ⟨r, tail, rfl, hr, -⟩ := List.map_eq_cons_iff.mp hback
  have hhandled : handledReports t.past reports = front := by
    rw [handledReports, ← hfront, List.length_map, hreports, List.take_left]
  exact ⟨r, tail, hr, by rw [hhandled, hreports]⟩

theorem length_followed_le (h : Account period started t reports) :
    (followed t.past).length ≤ reports.length := by
  rw [← h.inOrder, List.length_map]
  exact List.length_take_le' _ _

/-- A report that comes in is not yet handled. -/
theorem handledReports_concat (h : Account period started t reports) (r : Report) :
    handledReports t.past (reports ++ [r]) = handledReports t.past reports :=
  List.take_append_of_le_length h.length_followed_le

/-- Where a move leaves the past and the reports alone, the account stays. -/
theorem idle (h : Account period started t reports) (ht' : t'.Reachable period started)
    (hpast : t'.past = t.past) (hstream : t'.loop.running = true →
      t.loop.running = true ∧ t'.loop.inbox.stream = t.loop.inbox.stream) :
    Account period started t' reports where
  toUpToDate := hpast ▸ h.toUpToDate
  reachable := ht'
  known := hpast ▸ h.known
  contract := h.contract
  inOrder := hpast ▸ h.inOrder
  waiting hrunning := by
    obtain ⟨hrunning, hsame⟩ := hstream hrunning
    rw [hpast, hsame]
    exact h.waiting hrunning

/-- A session that has been started reports what its contract allows. -/
theorem report (h : Account period started t reports) {session : Nat} {e : StreamEvent}
    (hstarted : session < sessionsAfter period started t.past)
    (hcontract : KeepsContract (reportsOf session reports ++ [e])) :
    Account period started (t.report e) (reports ++ [⟨session, e⟩]) := by
  have hpast : (t.report e).past = t.past := by
    unfold Traffic.report
    split <;> rfl
  have hhandled := h.handledReports_concat ⟨session, e⟩
  constructor
  · constructor
    · rw [hpast, hhandled]
      exact h.ended
    · rw [hpast, hhandled]
      exact h.connection
  · obtain ⟨moves, rfl⟩ := h.reachable
    exact ⟨.report e :: moves, rfl⟩
  · intro r hr
    rw [hpast]
    rcases List.mem_append.mp hr with hr | hr
    · exact h.known r hr
    · rw [List.mem_singleton.mp hr]
      exact hstarted
  · intro other
    rw [reportsOf_append, reportsOf_singleton]
    by_cases hother : session = other
    · subst hother
      rw [if_pos rfl]
      exact hcontract
    · rw [if_neg hother, List.append_nil]
      exact h.contract other
  · rw [hpast, hhandled]
    exact h.inOrder
  · intro hrunning
    rw [hpast]
    cases hbefore : t.loop.running with
    | true =>
        have hstream : (t.report e).loop.inbox.stream = t.loop.inbox.stream ++ [e] := by
          simp [Traffic.report, Loop.report, hbefore]
        rw [hstream, List.map_append, h.waiting hbefore, List.append_assoc]
        rfl
    | false => simp [Traffic.report, Loop.report, hbefore] at hrunning

theorem contract_handled (h : Account period started t reports) (session : Nat) :
    KeepsContract (reportsOf session (handledReports t.past reports)) := by
  have hcontract := h.contract session
  rw [← List.take_append_drop (followed t.past).length reports, reportsOf_append] at hcontract
  exact (List.pairwise_append.mp hcontract).1

/-- A session that still reports is the latest: the end of every earlier one has been handled. -/
theorem latest_of_next (h : Account period started t reports) {r : Report} {tail : List Report}
    (hreports : reports = handledReports t.past reports ++ r :: tail) :
    sessionsAfter period started t.past = r.session + 1 := by
  have hknown : r.session < sessionsAfter period started t.past := by
    apply h.known
    rw [hreports]
    exact List.mem_append_right _ List.mem_cons_self
  have hcontract := h.contract r.session
  rw [hreports, reportsOf_append, ← List.singleton_append, reportsOf_append,
    reportsOf_singleton, if_pos rfl] at hcontract
  have hlive : ¬ HasEnded (handledReports t.past reports) r.session := by
    rw [hasEnded_iff]
    rintro ⟨e, he, hend⟩
    have hnot := hcontract.not_isEnd e he
    rw [hend] at hnot
    cases hnot
  have hlatest : ¬ r.session + 1 < sessionsAfter period started t.past :=
    fun hearlier => hlive (h.ended r.session hearlier)
  omega

/-- While the stream is down, the end of every session has been handled. -/
theorem hasEnded_of_disconnected (h : Account period started t reports)
    (hdown : (stateAfter period started t.past).connection = .disconnected) :
    ∀ session < sessionsAfter period started t.past,
      HasEnded (handledReports t.past reports) session := by
  intro session hsession
  rcases Nat.lt_or_eq_of_le (Nat.succ_le_of_lt hsession) with hearlier | hlatest
  · exact h.ended session hearlier
  · have hconnection := h.connection
    rw [hdown, ← hlatest] at hconnection
    rw [hasEnded_iff]
    exact (h.contract_handled session).standing.1.mp hconnection.symm

/-- An event that is neither a report nor the start of a session leaves the account as it is. -/
theorem handled_other (h : Account period started t reports) {now : Instant} {e : Event}
    (hevent : e.stream? = none)
    (hstarts : (stateAfter period started t.past).starts e = false) :
    UpToDate period started ((now, e) :: t.past) reports := by
  have hfollowed : followed ((now, e) :: t.past) = followed t.past := by
    rw [followed_cons, hevent]
    exact List.append_nil _
  have hsessions : sessionsAfter period started ((now, e) :: t.past) =
      sessionsAfter period started t.past := by
    rw [sessionsAfter_cons, hstarts]
    rfl
  have hconnection : (stateAfter period started ((now, e) :: t.past)).connection =
      (stateAfter period started t.past).connection :=
    (connection_step _ now e).trans (connectionAfter_of_not_starts hevent hstarts)
  constructor
  · rw [handledReports, hfollowed, hsessions]
    exact h.ended
  · rw [handledReports, hfollowed, hsessions, hconnection]
    exact h.connection

/-- A new session has reported nothing, and every other one has ended. -/
theorem handled_start (h : Account period started t reports) {now : Instant} {e : Event}
    (hstarts : (stateAfter period started t.past).starts e = true) :
    UpToDate period started ((now, e) :: t.past) reports := by
  obtain ⟨rfl, hdown⟩ := starts_iff.mp hstarts
  have hfollowed : followed ((now, .command .startStream) :: t.past) = followed t.past := by
    rw [followed_cons]
    exact List.append_nil _
  have hsessions : sessionsAfter period started ((now, .command .startStream) :: t.past) =
      sessionsAfter period started t.past + 1 := by
    rw [sessionsAfter_cons, hstarts]
    rfl
  have hconnection : (stateAfter period started
      ((now, .command .startStream) :: t.past)).connection = .connecting := by
    refine (connection_step _ now _).trans ?_
    rw [State.connectionAfter, hdown]
    rfl
  have hnothing : reportsOf (sessionsAfter period started t.past)
      (handledReports t.past reports) = [] := by
    apply reportsOf_eq_nil
    intro r hr
    exact Nat.ne_of_lt (h.known r (List.mem_of_mem_take hr))
  constructor
  · intro session hsession
    rw [hsessions] at hsession
    rw [handledReports, hfollowed]
    exact h.hasEnded_of_disconnected hdown session (Nat.lt_of_succ_lt_succ hsession)
  · rw [handledReports, hfollowed, hsessions, hconnection, latestStanding]
    exact (congrArg standing hnothing).symm

/-- A report that is handled is from the latest session. -/
theorem handled_report (h : Account period started t reports) {now : Instant} {e : StreamEvent}
    {more : List StreamEvent} (hrunning : t.loop.running = true)
    (hstream : t.loop.inbox.stream = e :: more) :
    UpToDate period started ((now, .stream e) :: t.past) reports := by
  obtain ⟨r, tail, hr, hreports⟩ := h.next_report hrunning hstream
  have hlatest := h.latest_of_next hreports
  have hsessions : sessionsAfter period started ((now, .stream e) :: t.past) = r.session + 1 := by
    rw [sessionsAfter_cons, hlatest]
    rfl
  have hhandled : handledReports ((now, .stream e) :: t.past) reports =
      handledReports t.past reports ++ [r] := by
    have hlength : (handledReports t.past reports).length = (followed t.past).length := by
      rw [← h.inOrder, List.length_map]
    have hnext : (followed ((now, .stream e) :: t.past)).length =
        (handledReports t.past reports).length + 1 := by
      rw [followed_cons, List.length_append, hlength]
      rfl
    rw [handledReports, hnext]
    nth_rewrite 2 [hreports]
    rw [List.take_length_add_append]
    rfl
  have hconnection : (stateAfter period started ((now, .stream e) :: t.past)).connection =
      follow (stateAfter period started t.past).connection e :=
    (connection_step _ now _).trans (connectionAfter_stream _ e)
  constructor
  · intro session hsession
    rw [hsessions, ← hlatest] at hsession
    obtain ⟨reason, hreason⟩ := h.ended session hsession
    rw [hhandled]
    exact ⟨reason, List.mem_append_left _ hreason⟩
  · rw [hhandled, hsessions, hconnection, h.connection, hlatest, latestStanding, latestStanding,
      reportsOf_append, reportsOf_singleton, if_pos rfl, standing_concat, hr]

/-- An event that is handled keeps the account up to date. -/
theorem upToDate_handled (h : Account period started t reports) {now : Instant} {e : Event}
    {rest : Inbox} (hrunning : t.loop.running = true)
    (hnext : t.loop.next? now = some (e, rest)) :
    UpToDate period started ((now, e) :: t.past) reports := by
  have hstream := Loop.stream_of_next? hnext
  cases hevent : e.stream? with
  | some x =>
      rw [hevent] at hstream
      cases e with
      | stream x' =>
          cases hevent
          exact h.handled_report hrunning hstream
      | fetched | command | pollTick => cases hevent
  | none =>
      cases hstarts : (stateAfter period started t.past).starts e with
      | true => exact h.handled_start hstarts
      | false => exact h.handled_other hevent hstarts

theorem handled (h : Account period started t reports) (ht' : t'.Reachable period started)
    {now : Instant} {e : Event} {rest : Inbox} (hrunning : t.loop.running = true)
    (hnext : t.loop.next? now = some (e, rest)) (hpast : t'.past = (now, e) :: t.past)
    (hstream : t'.loop.inbox.stream = rest.stream) : Account period started t' reports := by
  have hqueue : reports.map Report.event = followed t'.past ++ t'.loop.inbox.stream := by
    rw [h.waiting hrunning, Loop.stream_of_next? hnext, hpast, hstream, followed_cons,
      List.append_assoc]
  constructor
  · rw [hpast]
    exact h.upToDate_handled hrunning hnext
  · exact ht'
  · intro r hr
    rw [hpast, sessionsAfter_cons]
    exact Nat.lt_add_right _ (h.known r hr)
  · exact h.contract
  · rw [handledReports, List.map_take, hqueue, List.take_left]
  · exact fun _ => hqueue

end Account

/-- The account of a run is kept by all that can happen. -/
theorem account_of_conducted (h : Conducted period started t reports) :
    Account period started t reports := by
  induction h with
  | initial =>
      constructor
      · exact ⟨fun session hsession => absurd hsession (Nat.not_lt_zero _), rfl⟩
      · exact ⟨[], rfl⟩
      · exact fun r hr => absurd hr List.not_mem_nil
      · exact fun session => List.Pairwise.nil
      · rfl
      · exact fun _ => rfl
  | report session e _ hstarted hcontract ih => exact ih.report hstarted hcontract
  | @move t reports m _ hother ih =>
      have ht' : (t.take m).Reachable period started := by
        obtain ⟨moves, rfl⟩ := ih.reachable
        exact ⟨m :: moves, rfl⟩
      cases Traffic.quiet_take hother with
      | idle hpast hstream => exact ih.idle ht' hpast hstream
      | handled now e rest hrunning hnext hpast hstream =>
          exact ih.handled ht' hrunning hnext hpast hstream

variable (period started) in
/-- A session is live from its start until its end has been handled. -/
def Live (past : Past) (reports : List Report) (session : Nat) : Prop :=
  session < sessionsAfter period started past ∧ ¬ HasEnded (handledReports past reports) session

namespace Account

/-- A live session is the latest. -/
theorem latest_of_live (h : Account period started t reports) {session : Nat}
    (hlive : Live period started t.past reports session) :
    sessionsAfter period started t.past = session + 1 := by
  have hnot : ¬ session + 1 < sessionsAfter period started t.past :=
    fun hearlier => hlive.2 (h.ended session hearlier)
  have hstarted := hlive.1
  omega

theorem connection_of_live (h : Account period started t reports) {session : Nat}
    (hlive : Live period started t.past reports session) :
    (stateAfter period started t.past).connection ≠ .disconnected ∧
      ((stateAfter period started t.past).connection = .opened ↔
        HasOpened (handledReports t.past reports) session) := by
  have hstands := (h.contract_handled session).standing
  have hnot := hlive.2
  rw [hasEnded_iff] at hnot
  rw [h.connection, h.latest_of_live hlive, latestStanding]
  refine ⟨fun hdown => hnot (hstands.1.mp hdown), ?_⟩
  rw [hstands.2, mem_reportsOf_iff]
  constructor
  · exact fun hopened => hopened.2
  · refine fun hopened => ⟨fun e he => ?_, hopened⟩
    exact Bool.eq_false_iff.mpr fun hend => hnot ⟨e, he, hend⟩

/-- While the stream is not down, a session is live. -/
theorem exists_live (h : Account period started t reports)
    (hup : (stateAfter period started t.past).connection ≠ .disconnected) :
    ∃ session, Live period started t.past reports session := by
  have hconnection := h.connection
  cases hsessions : sessionsAfter period started t.past with
  | zero =>
      rw [hsessions] at hconnection
      exact absurd hconnection hup
  | succ session =>
      rw [hsessions, latestStanding] at hconnection
      refine ⟨session, by rw [hsessions]; exact Nat.lt_succ_self session, fun hended => hup ?_⟩
      rw [hconnection]
      exact (h.contract_handled session).standing.1.mpr (hasEnded_iff.mp hended)

end Account

/-- **One session is live at most.** In a run whose sessions keep to their contracts, reports are
handled in the order in which they came; a session is started only when the end of every earlier
one has been handled; so one session is live at most, and the connection is down, connecting or
open as no session is live, or its opening has not been handled, or it has. -/
theorem one_live_session (h : Conducted period started t reports) :
    let handled := handledReports t.past reports
    let IsLive := Live period started t.past reports
    handled.map Report.event = followed t.past ∧
    (∀ now e, .startSession ∈ (t.loop.engine.step now e).2 →
      ∀ session < sessionsAfter period started t.past, HasEnded handled session) ∧
    (∀ session other, IsLive session → IsLive other → session = other) ∧
    (t.loop.engine.connection = .disconnected ↔ ∀ session, ¬ IsLive session) ∧
    (t.loop.engine.connection = .connecting ↔
      ∃ session, IsLive session ∧ ¬ HasOpened handled session) ∧
    (t.loop.engine.connection = .opened ↔
      ∃ session, IsLive session ∧ HasOpened handled session) := by
  intro handled IsLive
  have account := account_of_conducted h
  rw [Traffic.engine_eq_stateAfter period started account.reachable]
  refine ⟨account.inOrder, ?_, ?_, ?_, ?_, ?_⟩
  · intro now e hstart
    have hdown := (starts_iff.mp (starts_of_mem_step hstart)).2
    exact account.hasEnded_of_disconnected hdown
  · intro session other hsession hother
    have hlatest := account.latest_of_live hsession
    rw [account.latest_of_live hother] at hlatest
    exact (Nat.succ.inj hlatest).symm
  · constructor
    · exact fun hdown session hlive => (account.connection_of_live hlive).1 hdown
    · intro hnone
      by_contra hup
      obtain ⟨session, hlive⟩ := account.exists_live hup
      exact hnone session hlive
  · constructor
    · intro hconnecting
      obtain ⟨session, hlive⟩ := account.exists_live (by simp [hconnecting])
      refine ⟨session, hlive, fun hopened => ?_⟩
      have hopen := (account.connection_of_live hlive).2.mpr hopened
      rw [hconnecting] at hopen
      cases hopen
    · rintro ⟨session, hlive, hopened⟩
      obtain ⟨hup, hiff⟩ := account.connection_of_live hlive
      cases hconnection : (stateAfter period started t.past).connection with
      | disconnected => exact absurd hconnection hup
      | connecting => rfl
      | opened => exact absurd (hiff.mp hconnection) hopened
  · constructor
    · intro hopen
      obtain ⟨session, hlive⟩ := account.exists_live (by simp [hopen])
      exact ⟨session, hlive, (account.connection_of_live hlive).2.mp hopen⟩
    · rintro ⟨session, hlive, hopened⟩
      exact (account.connection_of_live hlive).2.mpr hopened

/-- A session opens the stream and ends, the next one is asked for before that end is handled, and
its own opening waits to be handled: it is the only session that is live. -/
theorem one_live_session_restarted :
    ∃ t reports, Conducted 1000 0 t reports ∧ sessionsAfter 1000 0 t.past = 2 ∧
      t.loop.engine.connection = .connecting ∧
      ∃ session, Live 1000 0 t.past reports session ∧
        ¬ HasOpened (handledReports t.past reports) session := by
  have hasked : Conducted 1000 0 _ _ := Conducted.initial.move (.call .startStream) nofun
  have hfirst := hasked.move (.turn 10) nofun
  have hopening := hfirst.report 0 .opened (by decide +kernel) (by decide +kernel)
  have hopen := hopening.move (.turn 20) nofun
  have hending := hopen.report 0 (.closed none) (by decide +kernel) (by decide +kernel)
  have hagain := hending.move (.call .startStream) nofun
  have hended := hagain.move (.turn 30) nofun
  have hsecond := hended.move (.turn 40) nofun
  have hwaiting := hsecond.report 1 .opened (by decide +kernel) (by decide +kernel)
  obtain ⟨-, -, -, -, hconnecting, -⟩ := one_live_session hwaiting
  refine ⟨_, _, hwaiting, by decide +kernel, by decide +kernel, hconnecting.mp ?_⟩
  decide +kernel

end Account

end QuoteBoard.Engine
