/-
# Every request is answered once

A request is answered once, with a result of its own: with what its command had at once,
or with what its own fetch has found, and then the cache holds what was found. When the
engine stops, what waits in the inbox fails at once, and what is being fetched fails when
its fetch is complete.
-/

import QuoteBoard.Proofs.Engine.Waiting
import QuoteBoard.Proofs.Price.Cache

namespace QuoteBoard.Engine.Traffic

open QuoteBoard.Dashboard (AskError)

variable {period : Nat} {started : Instant} {t : Traffic}

/-! ## Whose answer it is -/

/-- A fetch that was started for a request is the fetch of its command, which had no answer yet. -/
theorem asks_of_started (h : Reachable period started t) {n : RequestId} {asker : Asker}
    {keys : List Key} (hmem : (asker, keys) ∈ t.started) (hasker : asker.request? = some n) :
    ∃ c now earlier, t.Handled now (.command c) earlier ∧ t.Asks n c ∧
      c.fetch? = some (asker, keys) ∧ (stateAfter period started earlier).answer? c = none := by
  obtain ⟨now, e, earlier, hhandled, hfetch⟩ := (replies_and_fetches_handled h).2 _ hmem
  obtain ⟨c, rfl, hnone, hof⟩ := State.fetch?_cases hfetch hasker
  have hrequest : c.request? = some n := (Command.request?_of_fetch? hof).symm.trans hasker
  exact ⟨c, now, earlier, hhandled, ⟨mem_calls_of_heard h hhandled.heard, hrequest⟩, hof, hnone⟩

/-- A request without a fetch is answered when its command is handled. -/
theorem handled_of_not_sought (h : Reachable period started t) {n : RequestId} {a : Answer}
    (hmem : (n, .ok a) ∈ t.replies) (hsought : n ∉ t.sought) :
    ∃ c now earlier, t.Handled now (.command c) earlier ∧ t.Asks n c ∧
      (stateAfter period started earlier).answer? c = some (n, a) := by
  obtain ⟨now, e, earlier, hhandled, hreply⟩ := (replies_and_fetches_handled h).1 n a hmem
  rcases State.reply?_cases hreply with ⟨c, rfl, hanswer⟩ | ⟨asker, found, rfl, hanswer⟩
  · have hcalled := mem_calls_of_heard h hhandled.heard
    exact ⟨c, now, earlier, hhandled, ⟨hcalled, State.request?_of_answer? hanswer⟩, hanswer⟩
  · obtain ⟨-, keys, hstarted⟩ := hhandled.completed h
    exact absurd (List.mem_filterMap.mpr ⟨_, hstarted, Asker.request?_of_answer? hanswer⟩) hsought

/-- A request with a fetch is answered when its fetch is handled. -/
theorem handled_of_started (h : Reachable period started t) {n : RequestId} {a : Answer}
    {asker : Asker} {keys : List Key} (hmem : (n, .ok a) ∈ t.replies)
    (hstarted : (asker, keys) ∈ t.started) (hasker : asker.request? = some n) :
    ∃ found now earlier, t.Handled now (.fetched asker found) earlier ∧
      asker.answer? found = some (n, a) := by
  obtain ⟨now, e, earlier, hhandled, hreply⟩ := (replies_and_fetches_handled h).1 n a hmem
  obtain ⟨c, now', earlier', hhandled', hc, hof, hnone⟩ := asks_of_started h hstarted hasker
  rcases State.reply?_cases hreply with ⟨c', rfl, hanswer⟩ | ⟨asker', found, rfl, hanswer⟩
  · -- one event would both answer the request and leave it to a fetch
    obtain ⟨rfl, rfl⟩ := hhandled.unique h (State.request?_of_answer? hanswer) hhandled' hc.2
    rw [hnone] at hanswer
    cases hanswer
  · -- both fetches are that of the one command of this name
    obtain ⟨-, keys', hstarted'⟩ := hhandled.completed h
    obtain ⟨c', -, -, -, hc', hof', -⟩ :=
      asks_of_started h hstarted' (Asker.request?_of_answer? hanswer)
    rw [asks_unique h hc' hc, hof] at hof'
    cases hof'
    exact ⟨found, now, earlier, hhandled, hanswer⟩

/-! ## Turns, and the end -/

theorem turn_of_running (hrunning : t.loop.running = true) (now : Instant) :
    (t.turn now).loop.running = true ∧
      (t.turn now).loop.inbox.size = t.loop.inbox.size - 1 ∧ (t.turn now).calls = t.calls := by
  unfold turn
  cases hnext : t.loop.next? now with
  | some next => exact ⟨hrunning, (Loop.yields_of_next? hnext).size, rfl⟩
  | none =>
      have hempty : t.loop.inbox = .empty := by
        apply Inbox.eq_empty_of_next?
        unfold Loop.next? at hnext
        cases hinbox : t.loop.inbox.next? with
        | none => rfl
        | some next =>
            rw [hrunning, hinbox] at hnext
            cases hnext
      refine ⟨hrunning, ?_, rfl⟩
      simp only [hempty]
      rfl

variable (period started) in
/-- As many turns as there are things in the inbox leave it empty. -/
theorem size_after_turns {moves : List Move}
    (hrunning : (after period started moves).loop.running = true) (times : List Instant) :
    let later := after period started (times.map .turn ++ moves)
    later.loop.running = true ∧
      later.loop.inbox.size = (after period started moves).loop.inbox.size - times.length ∧
      later.calls = (after period started moves).calls := by
  induction times with
  | nil => exact ⟨hrunning, rfl, rfl⟩
  | cons now times ih =>
      obtain ⟨hrun, hsize, hcalls⟩ := ih
      obtain ⟨hrun', hsize', hcalls'⟩ := turn_of_running hrun now
      refine ⟨hrun', ?_, hcalls'.trans hcalls⟩
      rw [List.length_cons, ← Nat.sub_sub, ← hsize]
      exact hsize'

/-- With an empty inbox a request waits for a fetch or for nothing. -/
theorem repliesTo_of_empty (h : Reachable period started t) (hempty : t.loop.inbox = .empty)
    {n : RequestId} {c : Command} (hc : t.Asks n c) :
    n ∈ t.fetching ∧ t.repliesTo n = [] ∨ n ∉ t.fetching ∧ ∃ r, t.repliesTo n = [r] := by
  have honce := length_repliesTo_add_count_waiting h hc
  have hwaiting : t.waiting = t.fetching := by rw [waiting, hempty]; rfl
  rw [hwaiting] at honce
  by_cases hn : n ∈ t.fetching
  · have hpos := List.count_pos_iff.mpr hn
    exact Or.inl ⟨hn, List.length_eq_zero_iff.mp (by omega)⟩
  · rw [List.count_eq_zero_of_not_mem hn] at honce
    exact Or.inr ⟨hn, List.length_eq_one_iff.mp honce⟩

/-- What has happened since the engine stopped: requests have failed, those that were known at
that time because they were dropped, the others because it has stopped. -/
structure Ended (t t' : Traffic) : Prop where
  stopped : t'.loop.running = false
  inbox : t'.loop.inbox = .empty
  calls : t.calls.length ≤ t'.calls.length
  fetching : ∀ n ∈ t'.fetching, n < t.calls.length
  replies : ∃ more, t'.replies = t.replies ++ more ∧ ∀ r ∈ more,
    r.2 = .error (if r.1 < t.calls.length then .dropped else .stopped)

theorem ended_stop (h : Reachable period started t) : t.Ended t.stop := by
  refine ⟨rfl, rfl, Nat.le_refl _, ?_, ?_⟩
  · exact fun n hn => lt_of_mem_waiting h (List.mem_append_right _ hn)
  · refine ⟨_, rfl, ?_⟩
    intro r hr
    obtain ⟨n, hn, rfl⟩ := List.mem_map.mp hr
    simp [lt_of_mem_waiting h (List.mem_append_left _ hn)]

theorem Ended.leads {t₀ t' : Traffic} (h : t₀.Ended t) (hleads : t.Leads t') : t₀.Ended t' := by
  obtain ⟨hstopped, hinbox, hcalls, hfetching, more, hreplies, hmore⟩ := h
  have hfail : ∀ (requests : List RequestId) (e : AskError),
      (∀ n ∈ requests, e = if n < t₀.calls.length then .dropped else .stopped) →
      ∃ more, t.replies ++ requests.map (·, .error e) = t₀.replies ++ more ∧
        ∀ r ∈ more, r.2 = .error (if r.1 < t₀.calls.length then .dropped else .stopped) := by
    intro requests e he
    refine ⟨more ++ requests.map (·, .error e), ?_, ?_⟩
    · rw [hreplies, List.append_assoc]
    · intro r hr
      rcases List.mem_append.mp hr with hr | hr
      · exact hmore r hr
      · obtain ⟨n, hn, rfl⟩ := List.mem_map.mp hr
        rw [← he n hn]
  cases hleads with
  | idle => exact ⟨hstopped, hinbox, hcalls, hfetching, more, hreplies, hmore⟩
  | called _ hrun | reported _ hrun | completed _ _ _ _ hrun | handled _ _ _ hrun =>
      exact absurd hrun (by simp [hstopped])
  | refused c =>
      refine ⟨hstopped, hinbox, ?_, hfetching, hfail _ _ ?_⟩
      · simp only [List.length_append]
        omega
      · intro n hn
        rw [Command.request?_named, Option.mem_toList] at hn
        obtain ⟨m, -, rfl⟩ := Option.map_eq_some_iff.mp hn
        rw [if_neg (Nat.not_lt.mpr hcalls)]
  | lost position asker keys _ hfetch =>
      refine ⟨hstopped, hinbox, hcalls, ?_, hfail _ _ ?_⟩
      · intro n hn
        exact hfetching n (((List.eraseIdx_sublist ..).filterMap _).subset hn)
      · intro n hn
        rw [Option.mem_toList] at hn
        rw [if_pos (hfetching n (List.mem_filterMap.mpr ⟨_, List.mem_of_getElem? hfetch, hn⟩))]
  | stopped =>
      refine ⟨rfl, rfl, hcalls, hfetching, hfail _ _ ?_⟩
      rw [hinbox]
      exact nofun

variable (period started) in
theorem ended_after (moves later : List Move) :
    (after period started moves).Ended (after period started (later ++ .stop :: moves)) := by
  induction later with
  | nil => exact ended_stop ⟨moves, rfl⟩
  | cons m later ih => exact ih.leads (leads_take m)

/-! ## The account -/

/-- What is known of the requests and fetches at any time. -/
structure Settled (period : Nat) (started : Instant) (t : Traffic) : Prop where
  /-- A request has one answer, or waits for it in one place. -/
  once : ∀ n c, t.Asks n c → (t.repliesTo n).length + t.waiting.count n = 1
  /-- A fetch that was started for a request is the fetch of its own command. The answer, if it is
  not an error, is what this fetch has found, which at that time is in the cache. -/
  fetched : ∀ n asker keys, (asker, keys) ∈ t.started → asker.request? = some n →
    ∃ c, t.Asks n c ∧ c.fetch? = some (asker, keys) ∧ ∀ a, .ok a ∈ t.repliesTo n →
      ∃ found now earlier, t.completed.filter (·.1 = asker) = [(asker, found)] ∧
        asker.answer? found = some (n, a) ∧ t.Handled now (.fetched asker found) earlier ∧
        let s := stateAfter period started earlier
        (s.step now (.fetched asker found)).2 = (s.merge found).2 ++ [.reply n a] ∧
          ∀ k price, found.get? k = some price → (s.merge found).1.cache.get? k = some price
  /-- Without a fetch the answer, if it is not an error, is the one that the command had at once. -/
  atOnce : ∀ n a, n ∉ t.sought → .ok a ∈ t.repliesTo n →
    ∃ c now earlier, t.Handled now (.command c) earlier ∧ t.Asks n c ∧
      (stateAfter period started earlier).answer? c = some (n, a)
  /-- Of a running engine every fetch that was started is under way or complete, and every complete
  fetch is in the inbox or has been taken in, in order. -/
  kept : t.loop.running = true →
    (t.started.map Prod.fst).Perm (t.completed.map Prod.fst ++ t.underway.map Prod.fst) ∧
      t.completed = t.merged ++ t.loop.inbox.fetched
  /-- To take a complete fetch in is to merge it, whatever the state of the stream. -/
  taken : ∀ now asker found earlier, t.Handled now (.fetched asker found) earlier →
    (stateAfter period started ((now, .fetched asker found) :: earlier)).desk =
      ((stateAfter period started earlier).desk.perform (.merge found.entries)).desk

theorem settled (h : Reachable period started t) : Settled period started t := by
  constructor
  case once => exact fun n c hc => length_repliesTo_add_count_waiting h hc
  case fetched =>
    intro n asker keys hstarted hasker
    obtain ⟨c, -, -, -, hc, hof, -⟩ := asks_of_started h hstarted hasker
    refine ⟨c, hc, hof, fun a ha => ?_⟩
    obtain ⟨found, now, earlier, hhandled, hanswer⟩ :=
      handled_of_started h (mem_repliesTo_iff.mp ha) hstarted hasker
    refine ⟨found, now, earlier, filter_completed_eq h (hhandled.completed h).1 hasker, hanswer,
      hhandled, ?_, ?_⟩
    · cases asker <;> cases hanswer <;> rfl
    · intro k price hprice
      have hmerge := (carries_merge (stateAfter period started earlier) found).desk
      have hcache := congrArg (fun d : Desk => d.cache.get? k) hmerge
      refine hcache.trans ((Cache.get?_merge_entries _ found k).trans ?_)
      rw [hprice, Option.some_or]
  case atOnce =>
    exact fun n a hn ha => handled_of_not_sought h (mem_repliesTo_iff.mp ha) hn
  case kept =>
    intro hrunning
    obtain ⟨missed, hperm, hmissed⟩ := started_perm h
    obtain ⟨refused, lost, -, hcompleted, hnothing⟩ := handled_in_order h
    rw [hmissed hrunning, List.append_nil] at hperm
    rw [(hnothing hrunning).2, List.append_nil] at hcompleted
    exact ⟨hperm, hcompleted⟩
  case taken =>
    intro now asker found earlier _
    exact desk_stateAfter_cons period started now (.fetched asker found) earlier

/-- What is known of the requests and fetches of a run, and of what may follow it. -/
structure Accounted (period : Nat) (started : Instant) (moves : List Move) : Prop where
  settled : Settled period started (after period started moves)
  /-- A running engine that gets to its inbox has answered all requests but those that are being
  fetched. -/
  served : (after period started moves).loop.running = true → ∀ times : List Instant,
    (after period started moves).loop.inbox.size ≤ times.length →
    ∀ n c, (after period started moves).Asks n c →
      let later := after period started (times.map .turn ++ moves)
      n ∈ later.fetching ∧ later.repliesTo n = [] ∨
        n ∉ later.fetching ∧ ∃ a, later.repliesTo n = [.ok a]
  /-- Once the engine has stopped, what was not answered fails, if need be when its fetch is
  complete. -/
  ended : ∀ later n c, (after period started (later ++ .stop :: moves)).Asks n c →
    (after period started moves).repliesTo n = [] →
    (after period started (later ++ .stop :: moves)).repliesTo n =
      if n ∈ (after period started (later ++ .stop :: moves)).fetching then []
      else [.error (if n < (after period started moves).calls.length then .dropped else .stopped)]

variable (period started) in
/-- **Every request is answered once, and with its own result.** -/
theorem requests_answered_once (moves : List Move) : Accounted period started moves := by
  constructor
  case settled => exact Traffic.settled ⟨moves, rfl⟩
  case served =>
    intro hrunning times htimes n c hc later
    obtain ⟨hrun, hsize, hcalls⟩ := size_after_turns period started hrunning times
    have hreach : Reachable period started later := ⟨_, rfl⟩
    have hempty : later.loop.inbox = .empty :=
      Inbox.eq_empty_of_size (hsize.trans (Nat.sub_eq_zero_of_le htimes))
    have hasks : later.Asks n c := ⟨hcalls ▸ hc.1, hc.2⟩
    rcases repliesTo_of_empty hreach hempty hasks with hfetching | ⟨hn, r, hr⟩
    · exact Or.inl hfetching
    · have hmem : (n, r) ∈ later.replies := mem_repliesTo_iff.mp (hr ▸ List.mem_singleton_self r)
      obtain ⟨a, ha⟩ := ok_of_mem_replies hreach hrun _ hmem
      exact Or.inr ⟨hn, a, ha ▸ hr⟩
  case ended =>
    intro later n c hc hbefore
    have hreach : Reachable period started (after period started (later ++ .stop :: moves)) :=
      ⟨_, rfl⟩
    have hended := ended_after period started moves later
    rcases repliesTo_of_empty hreach hended.inbox hc with ⟨hn, hnone⟩ | ⟨hn, r, hr⟩
    · rw [hnone, if_pos hn]
    · obtain ⟨more, hreplies, hmore⟩ := hended.replies
      have hmem : (n, r) ∈ (after period started (later ++ .stop :: moves)).replies :=
        mem_repliesTo_iff.mp (hr ▸ List.mem_singleton_self r)
      have hnot : (n, r) ∉ (after period started moves).replies := by
        rw [← mem_repliesTo_iff, hbefore]
        exact List.not_mem_nil
      rw [hreplies] at hmem
      have hfails := hmore _ ((List.mem_append.mp hmem).resolve_left hnot)
      rw [hr, if_neg hn]
      exact congrArg (fun r => [r]) hfails

example :
    (after 1000 0 [.turn 9, .finish 0 (TextMap.ofList [("A", ⟨0x4024000000000000⟩)]), .turn 5,
      .call (.price 0 "A")]).repliesTo 0 = [.ok (.price (some ⟨0x4024000000000000⟩))] := by
  decide +kernel

example :
    (after 1000 0 [.finish 0 (TextMap.ofList [("A", ⟨0x4024000000000000⟩)]), .stop, .turn 5,
      .call (.price 0 "A")]).repliesTo 0 = [.error .dropped] := by
  decide +kernel

end QuoteBoard.Engine.Traffic
