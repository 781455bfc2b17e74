/-
# A service in rehearsal keeps step with the traffic

A rehearsal carries out its script in an order of its own, one task at a time. To the engine
this is one of the interleavings that `Traffic` allows: a service in rehearsal keeps step with
a run (`Follows`). Its engine and its inbox are those of the run, its display has followed the
same past, as many commands have been sent, the same fetches are under way, and its clients wait
for requests that wait in the run. Each move of the traffic has a lemma that says how the service
makes it.
-/

import QuoteBoard.Proofs.Engine.Cells
import QuoteBoard.Proofs.Engine.Waiting
import QuoteBoard.Proofs.Rehearsal.Deeds

namespace QuoteBoard.Engine

/-- Events are reported one after the other. -/
theorem Loop.report_cons (l : Loop) (e : Feed.StreamEvent) (rest : List Feed.StreamEvent) :
    l.report (e :: rest) = (l.report [e]).bind (Loop.report rest) := by
  cases hrunning : l.running <;> simp [Loop.report, hrunning]

namespace Traffic

variable {period : Nat} {started : Instant} {t t' : Traffic}

/-- The requests that wait are those that have no answer. -/
theorem mem_waiting_iff (h : Reachable period started t) {n : RequestId} :
    n ∈ t.waiting ↔ n ∈ t.asked ∧ n ∉ t.replies.map Prod.fst := by
  have hcount := count_replies_add_count_waiting h n
  have honce := List.nodup_iff_count_le_one.mp (nodup_asked h) n
  rw [← List.count_pos_iff, ← List.count_pos_iff, ← List.count_eq_zero]
  omega

theorem Reachable.take (h : Reachable period started t) (m : Move) :
    Reachable period started (t.take m) := by
  obtain ⟨moves, rfl⟩ := h
  exact ⟨m :: moves, rfl⟩

end Traffic

end QuoteBoard.Engine

namespace QuoteBoard.Rehearsal.Service

open QuoteBoard.Dashboard (AskError)
open QuoteBoard.Engine (Answer Command Event Inbox Instant RequestId Traffic displayAfter)
open QuoteBoard.Feed (StreamEvent)

/-- A service keeps step with a run of the traffic. -/
structure Follows (period : Nat) (started : Instant) (w : Service) (t : Traffic) : Prop where
  reachable : Traffic.Reachable period started t
  loop_eq : w.loop = t.loop
  calls_eq : w.calls = t.calls.length
  display_eq : w.panel.display = displayAfter period started t.past
  askers_perm : w.askers.Perm (t.underway.map Prod.fst)
  nodup_awaited : w.awaited.Nodup
  waiting : ∀ r ∈ w.awaited, r ∈ t.waiting

namespace Follows

variable {period : Nat} {started : Instant} {w w' : Service} {t t' : Traffic}

theorem of_does {answered : List RequestId} (h : w.Follows period started t)
    (hdoes : Does w w' [] answered) : w'.Follows period started t where
  reachable := h.reachable
  loop_eq := hdoes.loop_eq.trans h.loop_eq
  calls_eq := hdoes.calls_eq.trans h.calls_eq
  display_eq := hdoes.display_eq.trans h.display_eq
  askers_perm := hdoes.askers_same ▸ h.askers_perm
  nodup_awaited := h.nodup_awaited.sublist hdoes.awaited_sublist
  waiting r hr := h.waiting r (hdoes.awaited_sublist.subset hr)

/-- A service goes along with a move if nobody goes on waiting for a request that it answers. -/
theorem of_move {more : List (RequestId × Except AskError Answer)}
    (h : w.Follows period started t) (hreach : Traffic.Reachable period started t')
    (hloop : w'.loop = t'.loop) (hcalls : w'.calls = t'.calls.length)
    (hdisplay : w'.panel.display = displayAfter period started t'.past)
    (haskers : w'.askers.Perm (t'.underway.map Prod.fst)) (hasked : t.asked ⊆ t'.asked)
    (hreplies : t'.replies = t.replies ++ more) (hawaited : w'.awaited.Sublist w.awaited)
    (hanswered : ∀ r ∈ more.map Prod.fst, r ∉ w'.awaited) : w'.Follows period started t' := by
  refine ⟨hreach, hloop, hcalls, hdisplay, haskers, h.nodup_awaited.sublist hawaited, ?_⟩
  intro r hr
  obtain ⟨hmem, hopen⟩ :=
    (Traffic.mem_waiting_iff h.reachable).mp (h.waiting r (hawaited.subset hr))
  rw [Traffic.mem_waiting_iff hreach, hreplies, List.map_append, List.mem_append]
  refine ⟨hasked hmem, ?_⟩
  rintro (hold | hnew)
  · exact hopen hold
  · exact hanswered r hnew hr

/-- A service goes along with a move that answers nothing. -/
theorem of_silent (h : w.Follows period started t) (hreach : Traffic.Reachable period started t')
    (hloop : w'.loop = t'.loop) (hcalls : w'.calls = t'.calls.length)
    (hdisplay : w'.panel.display = displayAfter period started t'.past)
    (haskers : w'.askers.Perm (t'.underway.map Prod.fst)) (hasked : t.asked ⊆ t'.asked)
    (hreplies : t'.replies = t.replies) (hawaited : w'.awaited = w.awaited) :
    w'.Follows period started t' :=
  h.of_move hreach hloop hcalls hdisplay haskers hasked
    (hreplies.trans (List.append_nil _).symm) (hawaited ▸ .refl _)
    fun _ hr => absurd hr List.not_mem_nil

/-- The engine handles an event, and what comes of it is carried out. -/
theorem turn {e : Event} {rest : Inbox} (h : w.Follows period started t)
    (hnext : w.loop.next? w.now = some (e, rest)) :
    ((w.loop.handle w.now e rest).2.foldl perform
      { w with loop := (w.loop.handle w.now e rest).1 }).Follows period started
        (t.take (.turn w.now)) := by
  have hdoes := does_performAll { w with loop := (w.loop.handle w.now e rest).1 }
    (w.loop.handle w.now e rest).2
  have hengine : w.loop.engine = Engine.stateAfter period started t.past := by
    rw [h.loop_eq]
    exact Traffic.engine_eq_stateAfter period started h.reachable
  have hreach := h.reachable.take (.turn w.now)
  rw [Traffic.take, Traffic.turn, ← h.loop_eq, hnext] at hreach ⊢
  refine h.of_move hreach hdoes.loop_eq (hdoes.calls_eq.trans h.calls_eq) ?_ ?_
    (List.Subset.refl _) rfl hdoes.awaited_sublist ?_
  · rw [hdoes.display_eq, Engine.displayAfter_cons, ← h.display_eq, ← hengine]
    rfl
  · rw [hdoes.askers_eq, List.map_append]
    exact h.askers_perm.append_right _
  · simp only [List.map_map, Function.comp_def]
    exact hdoes.answered h.nodup_awaited

/-- The engine stops, and the requests in its inbox fail. -/
theorem stop (h : w.Follows period started t) :
    w.stop.Follows period started (t.take .stop) := by
  have hdoes : Does { w with
      loop := w.loop.stop.1, alarms := w.alarms.filter (·.task ≠ Task.engine) } w.stop []
      w.loop.stop.2 := (does_see _ .ended).trans (does_dropAll _ w.loop.stop.2)
  have hreach := h.reachable.take .stop
  rw [Traffic.take, Traffic.stop, ← h.loop_eq] at hreach ⊢
  refine h.of_move hreach hdoes.loop_eq (hdoes.calls_eq.trans h.calls_eq)
    (hdoes.display_eq.trans h.display_eq) (hdoes.askers_same ▸ h.askers_perm)
    (List.Subset.refl _) rfl hdoes.awaited_sublist ?_
  simp only [List.map_map, Function.comp_def, List.map_id']
  exact hdoes.answered h.nodup_awaited

/-- The request of the next call is nobody's yet. -/
theorem notMem_awaited (h : w.Follows period started t) {c : Command} {r : RequestId}
    (hr : (c.named t.calls.length).request? = some r) : r ∉ w.awaited := by
  intro hmem
  have hlt := Traffic.lt_of_mem_waiting h.reachable (h.waiting r hmem)
  rw [Command.request?_named] at hr
  obtain ⟨_, -, rfl⟩ := Option.map_eq_some_iff.mp hr
  exact Nat.lt_irrefl _ hlt

/-- A command is sent. If the engine takes it, its request waits. -/
theorem send (h : w.Follows period started t) (c : Command) :
    (w.send c).2.Follows period started (t.take (.call c)) ∧
      (w.send c).2.awaited = w.awaited ∧
      ((w.send c).1 = true → ∀ r, (c.named w.calls).request? = some r →
        r ∈ (t.take (.call c)).waiting) := by
  have hreach := h.reachable.take (.call c)
  have hasked (more : List Command) : t.asked ⊆ (t.calls ++ more).filterMap (·.request?) := by
    rw [List.filterMap_append]
    exact List.subset_append_left _ _
  have hcalls : t.calls.length + 1 = (t.calls ++ [c.named t.calls.length]).length := by
    rw [List.length_append, List.length_singleton]
  rw [Traffic.take, Traffic.call] at hreach ⊢
  rw [Service.send, h.loop_eq, h.calls_eq]
  cases hsend : t.loop.send (c.named t.calls.length) with
  | none =>
      simp only [hsend] at hreach ⊢
      refine ⟨h.of_move hreach rfl hcalls h.display_eq h.askers_perm (hasked _) rfl (.refl _) ?_,
        rfl, fun htaken => absurd htaken Bool.false_ne_true⟩
      intro r hr
      simp only [List.map_map, Function.comp_def, List.map_id', Option.mem_toList] at hr
      exact h.notMem_awaited hr
  | some loop =>
      simp only [hsend] at hreach ⊢
      have hsent : { w with calls := t.calls.length + 1, loop }.Follows period started
          { t with calls := t.calls ++ [c.named t.calls.length], loop } :=
        h.of_silent hreach rfl hcalls h.display_eq h.askers_perm (hasked _) rfl rfl
      refine ⟨hsent.of_does (does_wake _ .engine), awaited_wake _ .engine, fun _ r hr => ?_⟩
      unfold Engine.Loop.send at hsend
      split at hsend
      · obtain rfl := Option.some.inj hsend
        have hcommand : r ∈ (t.loop.inbox.commands ++ [c.named t.calls.length]).filterMap
            (·.request?) := List.mem_filterMap.mpr ⟨_, List.mem_concat_self, hr⟩
        exact List.mem_append_left _ (List.mem_append_left _ hcommand)
      · cases hsend

/-- A session reports an event. -/
theorem report (h : w.Follows period started t) (e : StreamEvent) {loop : Engine.Loop}
    (hloop : w.loop.report [e] = some loop) :
    { w with loop }.Follows period started (t.take (.report e)) := by
  have hreach := h.reachable.take (.report e)
  rw [Traffic.take, Traffic.report, ← h.loop_eq, hloop] at hreach ⊢
  exact h.of_silent hreach rfl h.calls_eq h.display_eq h.askers_perm (List.Subset.refl _) rfl rfl

/-- A fetch is complete. -/
theorem finish (h : w.Follows period started t) {number : Nat} {errand : Errand}
    (herrand : w.errands[number]? = some (some errand)) (found : PriceMap) :
    ∃ position, (w.finishFetch number errand.asker found).Follows period started
      (t.take (.finish position found)) := by
  obtain ⟨front, back, herrands, hset, -⟩ := exists_append_of_getElem? herrand
  have hmiddle : w.askers.Perm (errand.asker :: { w with
      errands := w.errands.set number none }.askers) := by
    rw [askers, askers, hset, herrands, List.filterMap_append, List.filterMap_append]
    exact List.perm_middle
  have hmem : errand.asker ∈ t.underway.map Prod.fst :=
    h.askers_perm.subset (hmiddle.symm.subset List.mem_cons_self)
  obtain ⟨⟨asker, keys⟩, hfetch, hasker⟩ := List.mem_map.mp hmem
  obtain ⟨position, hposition⟩ := List.getElem?_of_mem hfetch
  obtain rfl : asker = errand.asker := hasker
  have hleft : { w with errands := w.errands.set number none }.askers.Perm
      ((t.underway.eraseIdx position).map Prod.fst) :=
    (hmiddle.symm.trans
      (h.askers_perm.trans ((Traffic.underway_perm hposition).map Prod.fst))).cons_inv
  refine ⟨position, ?_⟩
  have hreach := h.reachable.take (.finish position found)
  rw [Traffic.take, Traffic.finish, hposition] at hreach ⊢
  rw [Service.finishFetch, h.loop_eq]
  cases hcomplete : t.loop.complete errand.asker found with
  | some loop =>
      simp only [hcomplete] at hreach ⊢
      have hdone :
          { w with errands := w.errands.set number none, loop }.Follows period started _ :=
        h.of_silent hreach rfl h.calls_eq h.display_eq hleft (List.Subset.refl _) rfl rfl
      exact hdone.of_does (does_wake _ .engine)
  | none =>
      simp only [hcomplete] at hreach ⊢
      have hdoes := does_dropAll { w with errands := w.errands.set number none, loop := t.loop }
        errand.asker.request?.toList
      refine h.of_move hreach hdoes.loop_eq (hdoes.calls_eq.trans h.calls_eq)
        (hdoes.display_eq.trans h.display_eq) (hdoes.askers_same ▸ hleft)
        (List.Subset.refl _) rfl hdoes.awaited_sublist ?_
      simp only [List.map_map, Function.comp_def, List.map_id']
      exact hdoes.answered h.nodup_awaited

/-- A client whose request waits begins to wait for the answer. -/
theorem await (h : w.Follows period started t) {r : RequestId} (hnew : r ∉ w.awaited)
    (hwaits : r ∈ t.waiting) (number : Nat) (next : Except AskError Answer → Talk) :
    (w.await number r next).Follows period started t := by
  cases hc : w.clients[number]? with
  | none =>
      have hsame : w.await number r next = w := by
        rw [Service.await, modifyClient, List.modify_eq_self (List.getElem?_eq_none_iff.mp hc)]
      rwa [hsame]
  | some c =>
      obtain ⟨front, back, hclients, -, hmodify⟩ := exists_append_of_getElem? hc
      have hothers : (front.filterMap Client.awaits? ++ back.filterMap Client.awaits?).Sublist
          w.awaited := by
        rw [awaited, hclients, List.filterMap_append]
        exact (List.Sublist.refl _).append ((List.sublist_cons_self c back).filterMap _)
      have hawaited : (w.await number r next).awaited =
          front.filterMap Client.awaits? ++ r :: back.filterMap Client.awaits? := by
        change (w.clients.modify number _).filterMap _ = _
        rw [hmodify, List.filterMap_append]
        rfl
      have hbefore (r' : RequestId) (hr' : r' ∈ front.filterMap Client.awaits? ++
          back.filterMap Client.awaits?) : r' ∈ t.waiting := h.waiting r' (hothers.subset hr')
      refine { h with nodup_awaited := ?_, waiting := fun r' hr' => ?_ }
      · rw [hawaited, List.nodup_middle, List.nodup_cons]
        exact ⟨fun hmem => hnew (hothers.subset hmem), h.nodup_awaited.sublist hothers⟩
      · rw [hawaited, List.mem_append, List.mem_cons] at hr'
        rcases hr' with hfront | rfl | hback
        · exact hbefore r' (List.mem_append_left _ hfront)
        · exact hwaits
        · exact hbefore r' (List.mem_append_right _ hback)

end Follows

end QuoteBoard.Rehearsal.Service
