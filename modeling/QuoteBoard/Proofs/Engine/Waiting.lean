/-
# Where a request waits

Between its call and its answer a request waits in one place: in the inbox as a command,
in a fetch under way, or in the inbox as a complete fetch. Each move hands it on from one
place to the next or to its answer, so the number of its answers and the number of places
where it waits make one at all times (`count_replies_add_count_waiting`). No fetch is
started twice for a request, and none is lost while the engine runs.
-/

import QuoteBoard.Proofs.Engine.Order
import Mathlib.Data.List.Perm.Basic

namespace QuoteBoard.Engine.Traffic

open QuoteBoard.Dashboard (AskError)

variable {period : Nat} {started : Instant} {t : Traffic}

/-! ## Places -/

theorem underway_perm {position : Nat} {fetch : Asker × List Key}
    (h : t.underway[position]? = some fetch) :
    t.underway.Perm (fetch :: t.underway.eraseIdx position) := by
  obtain ⟨hlt, rfl⟩ := List.getElem?_eq_some_iff.mp h
  exact (List.getElem_cons_eraseIdx_perm hlt).symm

theorem count_fetching {position : Nat} {asker : Asker} {keys : List Key}
    (h : t.underway[position]? = some (asker, keys)) (n : RequestId) :
    t.fetching.count n = asker.request?.toList.count n +
      ((t.underway.eraseIdx position).filterMap (·.1.request?)).count n := by
  rw [fetching, ((underway_perm h).filterMap _).count_eq, ← List.singleton_append,
    List.filterMap_append, filterMap_singleton, List.count_append]

theorem count_requests_of_yields {i rest : Inbox} {e : Event} (h : i.Yields e rest)
    (n : RequestId) :
    i.requests.count n = e.request?.toList.count n + rest.requests.count n := by
  have hsplit : e.request?.toList = e.command?.toList.filterMap (·.request?) ++
      e.fetched?.toList.filterMap (·.1.request?) := by
    cases e with
    | command c => cases c <;> rfl
    | fetched asker found => cases asker <;> rfl
    | stream | pollTick => rfl
  simp only [Inbox.requests, h.commands, h.fetched, hsplit, List.filterMap_append,
    List.count_append]
  omega

/-- **A request has one answer, or waits in one place.** -/
theorem count_replies_add_count_waiting (h : Reachable period started t) (n : RequestId) :
    (t.replies.map Prod.fst).count n + t.waiting.count n = t.asked.count n := by
  refine run_induction period started rfl ?_ t h
  intro t t' _ hleads ih
  cases hleads with
  | idle | reported => exact ih
  | called c hrun =>
      simp only [waiting, asked, fetching, Inbox.requests, List.filterMap_append,
        List.count_append] at ih ⊢
      omega
  | refused c hstop =>
      simp only [waiting, fetching, asked, List.filterMap_append, List.count_append,
        filterMap_singleton, List.map_append, List.map_map, Function.comp_def,
        List.map_id'] at ih ⊢
      omega
  | completed position asker keys found hrun hfetch =>
      -- the request moves from the fetches under way to the inbox
      have hfetching := count_fetching hfetch n
      simp only [waiting, fetching, asked, Inbox.requests, List.filterMap_append,
        filterMap_singleton, List.count_append] at ih hfetching ⊢
      omega
  | lost position asker keys hstop hfetch =>
      have hfetching := count_fetching hfetch n
      simp only [waiting, fetching, asked, List.count_append, List.map_append, List.map_map,
        Function.comp_def, List.map_id'] at ih hfetching ⊢
      omega
  | handled now e rest hrun hnext =>
      -- the request of the event leaves the inbox, for its answer or for its fetch
      have hinbox := count_requests_of_yields (Loop.yields_of_next? hnext) n
      have hhanded := congrArg (List.count n) (request_handed_on t.loop.engine e)
      have hgiven : ((t.loop.engine.reply? e).toList.map fun r =>
          (r.1, (.ok r.2 : Except AskError Answer))).map Prod.fst =
          (t.loop.engine.reply? e).toList.map Prod.fst := List.map_map
      simp only [waiting, fetching, asked, List.filterMap_append, List.count_append,
        List.map_append, hgiven] at ih hinbox hhanded ⊢
      omega
  | stopped =>
      have hempty : Inbox.empty.requests = [] := rfl
      simp only [waiting, fetching, asked, hempty, List.count_append, List.count_nil,
        List.map_append, List.map_map, Function.comp_def, List.map_id'] at ih ⊢
      omega

theorem length_repliesTo (t : Traffic) (n : RequestId) :
    (t.repliesTo n).length = (t.replies.map Prod.fst).count n := by
  rw [repliesTo, List.length_map, List.count, List.countP_map, List.countP_eq_length_filter]
  congr 1

theorem length_repliesTo_add_count_waiting (h : Reachable period started t) {n : RequestId}
    {c : Command} (hc : t.Asks n c) : (t.repliesTo n).length + t.waiting.count n = 1 := by
  rw [length_repliesTo, count_replies_add_count_waiting h]
  exact List.count_eq_one_of_mem (nodup_asked h) (mem_asked_iff.mpr ⟨c, hc⟩)

theorem lt_of_mem_waiting (h : Reachable period started t) {n : RequestId} (hn : n ∈ t.waiting) :
    n < t.calls.length := by
  have hcount := count_replies_add_count_waiting h n
  have hpos := List.count_pos_iff.mpr hn
  obtain ⟨c, hc⟩ := mem_asked_iff.mp (List.count_pos_iff.mp (show 0 < t.asked.count n by omega))
  exact lt_of_asks h hc

theorem mem_repliesTo_iff {n : RequestId} {r : Except AskError Answer} :
    r ∈ t.repliesTo n ↔ (n, r) ∈ t.replies := by
  simp only [repliesTo, List.mem_map, List.mem_filter, decide_eq_true_eq]
  constructor
  · rintro ⟨⟨m, r'⟩, ⟨hmem, rfl⟩, rfl⟩
    exact hmem
  · exact fun hmem => ⟨(n, r), ⟨hmem, rfl⟩, rfl⟩

/-- While the engine runs no request fails. -/
theorem ok_of_mem_replies (h : Reachable period started t) (hrunning : t.loop.running = true) :
    ∀ r ∈ t.replies, ∃ a, r.2 = .ok a := by
  revert hrunning
  refine run_induction period started (fun _ => nofun) ?_ t h
  intro t t' _ hleads ih hrunning
  cases hleads with
  | refused c hstop => exact absurd hrunning (by simp [hstop])
  | lost position asker keys hstop => exact absurd hrunning (by simp [hstop])
  | stopped => cases hrunning
  | handled now e rest hrun hnext =>
      intro r hr
      rcases List.mem_append.mp hr with hr | hr
      · exact ih hrun r hr
      · obtain ⟨given, -, rfl⟩ := List.mem_map.mp hr
        exact ⟨given.2, rfl⟩
  | idle | called | reported | completed => exact ih hrunning

/-! ## Fetches -/

/-- Each fetch that was started is complete or under way; only an engine that has stopped misses
some. -/
theorem started_perm (h : Reachable period started t) :
    ∃ missed, (t.started.map Prod.fst).Perm
        (t.completed.map Prod.fst ++ t.underway.map Prod.fst ++ missed) ∧
      (t.loop.running = true → missed = []) := by
  refine run_induction period started ⟨[], .refl _, fun _ => rfl⟩ ?_ t h
  rintro t t' - hleads ⟨missed, hperm, hmissed⟩
  have hout : ∀ {position : Nat} {asker : Asker} {keys : List Key},
      t.underway[position]? = some (asker, keys) → (t.started.map Prod.fst).Perm
        (t.completed.map Prod.fst ++ asker :: (t.underway.eraseIdx position).map Prod.fst ++
          missed) := fun hfetch =>
    hperm.trans ((((underway_perm hfetch).map Prod.fst).append_left _).append_right _)
  cases hleads with
  | completed position asker keys found hrun hfetch =>
      refine ⟨missed, ?_, hmissed⟩
      simpa using hout hfetch
  | lost position asker keys hstop hfetch =>
      refine ⟨asker :: missed, (hout hfetch).trans ?_, by simp [hstop]⟩
      simp only [List.append_assoc, List.cons_append]
      exact List.perm_middle.symm.append_left _
  | handled now e rest hrun hnext =>
      refine ⟨missed, ?_, hmissed⟩
      obtain rfl := hmissed hrun
      have hmore := hperm.append_right ((t.loop.engine.fetch? e).toList.map Prod.fst)
      simpa using hmore
  | stopped => exact ⟨missed, hperm, nofun⟩
  | idle | called | refused | reported => exact ⟨missed, hperm, hmissed⟩

theorem sought_sublist_heard (h : Reachable period started t) :
    t.sought.Sublist (t.heard.filterMap (·.request?)) := by
  refine run_induction period started (List.nil_sublist _) ?_ t h
  intro t t' _ hleads ih
  cases hleads with
  | handled now e rest hrun hnext =>
      have hnew : ((t.loop.engine.fetch? e).toList.filterMap (·.1.request?)).Sublist
          (e.command?.toList.filterMap (·.request?)) := by
        have hhanded := request_handed_on t.loop.engine e
        cases e with
        | command c =>
            have hrequest : (Event.command c).command?.toList.filterMap (·.request?) =
              (Event.command c).request?.toList := filterMap_singleton _ c
            rw [hrequest, ← hhanded]
            exact List.sublist_append_right _ _
        | stream | fetched => exact List.nil_sublist _
        | pollTick =>
            rw [State.fetch?]
            split <;> exact List.nil_sublist _
      simp only [sought, heard, reverse_filterMap_cons, List.filterMap_append]
      exact ih.append hnew
  | idle | called | refused | reported | completed | lost | stopped => exact ih

theorem nodup_sought (h : Reachable period started t) : t.sought.Nodup :=
  (nodup_heard h).sublist (sought_sublist_heard h)

theorem nodup_completed (h : Reachable period started t) :
    (t.completed.filterMap (·.1.request?)).Nodup := by
  obtain ⟨missed, hperm, -⟩ := started_perm h
  have hsought := nodup_sought h
  have hmap : ∀ {α : Type} (l : List (Asker × α)), (l.map Prod.fst).filterMap (·.request?) =
    l.filterMap (·.1.request?) := fun l => List.filterMap_map
  rw [sought, ← hmap, (hperm.filterMap _).nodup_iff, List.append_assoc, List.filterMap_append,
    hmap] at hsought
  exact (List.nodup_append.mp hsought).1

/-- A complete fetch of a request is the only one of its asker. -/
theorem filter_completed_eq (h : Reachable period started t) {asker : Asker} {found : PriceMap}
    {n : RequestId} (hmem : (asker, found) ∈ t.completed) (hasker : asker.request? = some n) :
    t.completed.filter (·.1 = asker) = [(asker, found)] := by
  obtain ⟨before, behind, hsplit⟩ := List.append_of_mem hmem
  have hnodup := nodup_completed h
  have hcons : ((asker, found) :: behind).filterMap (·.1.request?) =
    n :: behind.filterMap (·.1.request?) := List.filterMap_cons_some hasker
  rw [hsplit, List.filterMap_append, hcons, List.nodup_append, List.nodup_cons] at hnodup
  obtain ⟨-, ⟨hbehind, -⟩, hbefore⟩ := hnodup
  have hnone : ∀ l : List (Asker × PriceMap), n ∉ l.filterMap (·.1.request?) →
      l.filter (·.1 = asker) = [] := by
    intro l hl
    refine List.filter_eq_nil_iff.mpr fun p hp heq => hl (List.mem_filterMap.mpr ⟨p, hp, ?_⟩)
    rw [of_decide_eq_true heq]
    exact hasker
  have hnotBefore : n ∉ before.filterMap (·.1.request?) := fun hn =>
    hbefore n hn n List.mem_cons_self rfl
  rw [hsplit, List.filter_append, List.filter_cons_of_pos (by simp), hnone _ hnotBefore,
    hnone _ hbehind]
  rfl

theorem Handled.completed (hreach : Reachable period started t) {now : Instant} {asker : Asker}
    {found : PriceMap} {earlier : Past} (h : t.Handled now (.fetched asker found) earlier) :
    (asker, found) ∈ t.completed ∧ ∃ keys, (asker, keys) ∈ t.started := by
  have hcompleted : (asker, found) ∈ t.completed := by
    obtain ⟨refused, lost, -, hcompleted, -⟩ := handled_in_order hreach
    rw [hcompleted, List.append_assoc]
    exact List.mem_append_left _ h.merged
  obtain ⟨missed, hperm, -⟩ := started_perm hreach
  have hstarted : asker ∈ t.started.map Prod.fst := by
    rw [hperm.mem_iff, List.append_assoc]
    exact List.mem_append_left _ (List.mem_map.mpr ⟨_, hcompleted, rfl⟩)
  obtain ⟨⟨_, keys⟩, hmem, rfl⟩ := List.mem_map.mp hstarted
  exact ⟨hcompleted, keys, hmem⟩

end QuoteBoard.Engine.Traffic
