/-
# The order of a run

The engine handles commands and complete fetches in the order in which they came, and
each of them once; only what an engine has not handled when it stops is left out. A call
has a name of its own, so the command of a request is handled at one point of the past at
most, and every answer and every fetch belongs to an event of the past.
-/

import QuoteBoard.Proofs.Engine.Traffic

namespace QuoteBoard.Engine

namespace Traffic

variable {period : Nat} {started : Instant} {t : Traffic}

/-- The requests of all calls. -/
def asked (t : Traffic) : List RequestId := t.calls.filterMap (·.request?)

/-- The requests for which a fetch was started. -/
def sought (t : Traffic) : List RequestId := t.started.filterMap (·.1.request?)

/-- The commands that the engine has handled, in order. -/
def heard (t : Traffic) : List Command := (t.past.filterMap (·.2.command?)).reverse

/-- The complete fetches that the engine has handled, in order. -/
def merged (t : Traffic) : List (Asker × PriceMap) := (t.past.filterMap (·.2.fetched?)).reverse

/-! ## Names -/

/-- A request is named after the position of its call. -/
theorem eq_of_request?_getElem?_calls (h : Reachable period started t) :
    ∀ (i : Nat) (c : Command), t.calls[i]? = some c → ∀ n, c.request? = some n → n = i := by
  refine run_induction period started (by simp [initial]) ?_ t h
  intro t t' _ hleads ih
  have hcalled : ∀ (c : Command) (i : Nat) (c' : Command),
      (t.calls ++ [c.named t.calls.length])[i]? = some c' → ∀ n, c'.request? = some n → n = i := by
    intro c i c' hc' n hn
    rcases Nat.lt_trichotomy i t.calls.length with hlt | rfl | hgt
    · rw [List.getElem?_append_left hlt] at hc'
      exact ih i c' hc' n hn
    · rw [List.getElem?_concat_length] at hc'
      cases hc'
      rw [Command.request?_named] at hn
      obtain ⟨m, -, rfl⟩ := Option.map_eq_some_iff.mp hn
      rfl
    · rw [List.getElem?_eq_none (by simp; omega)] at hc'
      cases hc'
  cases hleads with
  | called c => exact hcalled c
  | refused c => exact hcalled c
  | idle | reported | completed | lost | handled | stopped => exact ih

theorem getElem?_calls_of_asks (h : Reachable period started t) {n : RequestId} {c : Command}
    (hc : t.Asks n c) : t.calls[n]? = some c := by
  obtain ⟨i, hi⟩ := List.getElem?_of_mem hc.1
  rw [eq_of_request?_getElem?_calls h i c hi n hc.2]
  exact hi

theorem lt_of_asks (h : Reachable period started t) {n : RequestId} {c : Command}
    (hc : t.Asks n c) : n < t.calls.length :=
  (List.getElem?_eq_some_iff.mp (getElem?_calls_of_asks h hc)).1

theorem asks_unique (h : Reachable period started t) {n : RequestId} {c c' : Command}
    (hc : t.Asks n c) (hc' : t.Asks n c') : c = c' :=
  Option.some.inj ((getElem?_calls_of_asks h hc).symm.trans (getElem?_calls_of_asks h hc'))

theorem nodup_asked (h : Reachable period started t) : t.asked.Nodup := by
  rw [asked, List.Nodup, List.pairwise_filterMap, List.pairwise_iff_getElem]
  intro i j hi hj hlt n hn m hm
  have hni := eq_of_request?_getElem?_calls h i _ (List.getElem?_eq_getElem hi) n hn
  have hmj := eq_of_request?_getElem?_calls h j _ (List.getElem?_eq_getElem hj) m hm
  rw [hni, hmj]
  exact Nat.ne_of_lt hlt

theorem mem_asked_iff {n : RequestId} : n ∈ t.asked ↔ ∃ c, t.Asks n c :=
  List.mem_filterMap

/-! ## The order in which things are handled -/

/-- What came in is handled in the order in which it came. What is dropped stays out. -/
theorem handled_in_order (h : Reachable period started t) :
    ∃ refused lost, t.calls = t.heard ++ t.loop.inbox.commands ++ refused ∧
      t.completed = t.merged ++ t.loop.inbox.fetched ++ lost ∧
      (t.loop.running = true → refused = [] ∧ lost = []) := by
  refine run_induction period started ⟨[], [], rfl, rfl, fun _ => ⟨rfl, rfl⟩⟩ ?_ t h
  rintro t t' - hleads ⟨refused, lost, hcalls, hcompleted, hrunning⟩
  cases hleads with
  | called c hrun =>
      obtain ⟨rfl, rfl⟩ := hrunning hrun
      refine ⟨[], [], ?_, hcompleted, fun _ => ⟨rfl, rfl⟩⟩
      change t.calls ++ [_] = t.heard ++ (t.loop.inbox.commands ++ [_]) ++ []
      simp [hcalls]
  | refused c hstop =>
      refine ⟨refused ++ [c.named t.calls.length], lost, ?_, hcompleted, ?_⟩
      · change t.calls ++ [_] = t.heard ++ t.loop.inbox.commands ++ (refused ++ [_])
        rw [hcalls, List.append_assoc]
      · simp [hstop]
  | completed position asker keys found hrun =>
      obtain ⟨rfl, rfl⟩ := hrunning hrun
      refine ⟨[], [], hcalls, ?_, fun _ => ⟨rfl, rfl⟩⟩
      change t.completed ++ [_] = t.merged ++ (t.loop.inbox.fetched ++ [_]) ++ []
      simp [hcompleted]
  | handled now e rest hrun hnext =>
      have hyields := Loop.yields_of_next? hnext
      refine ⟨refused, lost, ?_, ?_, hrunning⟩
      · change t.calls = (((now, e) :: t.past).filterMap _).reverse ++ rest.commands ++ refused
        rw [reverse_filterMap_cons, hcalls, hyields.commands, heard]
        simp only [List.append_assoc]
      · change t.completed = (((now, e) :: t.past).filterMap _).reverse ++ rest.fetched ++ lost
        rw [reverse_filterMap_cons, hcompleted, hyields.fetched, merged]
        simp only [List.append_assoc]
  | stopped =>
      refine ⟨t.loop.inbox.commands ++ refused, t.loop.inbox.fetched ++ lost, ?_, ?_, nofun⟩
      · change t.calls = t.heard ++ [] ++ (t.loop.inbox.commands ++ refused)
        simp [hcalls]
      · change t.completed = t.merged ++ [] ++ (t.loop.inbox.fetched ++ lost)
        simp [hcompleted]
  | idle | reported | lost => exact ⟨refused, lost, hcalls, hcompleted, hrunning⟩

theorem nodup_heard (h : Reachable period started t) :
    (t.heard.filterMap (·.request?)).Nodup := by
  obtain ⟨refused, lost, hcalls, -, -⟩ := handled_in_order h
  have hasked := nodup_asked h
  rw [asked, hcalls, List.append_assoc, List.filterMap_append] at hasked
  exact (List.nodup_append.mp hasked).1

theorem mem_calls_of_heard (h : Reachable period started t) {c : Command} (hc : c ∈ t.heard) :
    c ∈ t.calls := by
  obtain ⟨refused, lost, hcalls, -, -⟩ := handled_in_order h
  rw [hcalls, List.append_assoc]
  exact List.mem_append_left _ hc

/-! ## Answers and fetches of the past -/

/-- At some time the engine has handled this event, after this past. -/
def Handled (t : Traffic) (now : Instant) (e : Event) (earlier : Past) : Prop :=
  (now, e) :: earlier <:+ t.past

theorem Handled.heard {now : Instant} {c : Command} {earlier : Past}
    (h : t.Handled now (.command c) earlier) : c ∈ t.heard :=
  List.mem_reverse.mpr (List.mem_filterMap.mpr ⟨_, h.subset List.mem_cons_self, rfl⟩)

theorem Handled.merged {now : Instant} {asker : Asker} {found : PriceMap} {earlier : Past}
    (h : t.Handled now (.fetched asker found) earlier) : (asker, found) ∈ t.merged :=
  List.mem_reverse.mpr (List.mem_filterMap.mpr ⟨_, h.subset List.mem_cons_self, rfl⟩)

/-- The command of a request is handled at one point of the past. -/
theorem Handled.unique (hreach : Reachable period started t) {n : RequestId}
    {now now' : Instant} {c c' : Command} {earlier earlier' : Past}
    (h : t.Handled now (.command c) earlier) (hc : c.request? = some n)
    (h' : t.Handled now' (.command c') earlier') (hc' : c'.request? = some n) :
    c = c' ∧ earlier = earlier' := by
  have hnodup : (t.past.filterMap fun p => p.2.command?.bind (·.request?)).Nodup := by
    have hheard := nodup_heard hreach
    rw [Traffic.heard, List.filterMap_reverse, List.filterMap_filterMap] at hheard
    exact (List.reverse_perm _).nodup_iff.mp hheard
  have heq := suffix_unique hnodup h hc h' hc'
  cases heq
  exact ⟨rfl, rfl⟩

/-- The answers that the engine has given and the fetches that it has started are those of the
events that it has handled. -/
theorem replies_and_fetches_handled (h : Reachable period started t) :
    (∀ n a, (n, .ok a) ∈ t.replies → ∃ now e earlier, t.Handled now e earlier ∧
      (stateAfter period started earlier).reply? e = some (n, a)) ∧
    ∀ fetch ∈ t.started, ∃ now e earlier, t.Handled now e earlier ∧
      (stateAfter period started earlier).fetch? e = some fetch := by
  refine run_induction period started ⟨nofun, nofun⟩ ?_ t h
  rintro t t' hreach hleads ⟨hreplies, hfetches⟩
  cases hleads with
  | refused | lost | stopped =>
      refine ⟨fun n a hmem => hreplies n a ?_, hfetches⟩
      simpa using hmem
  | handled now e rest hrun hnext =>
      have hengine := engine_eq_stateAfter period started hreach
      have hearlier : ∀ {now' e' earlier}, t.Handled now' e' earlier →
          (now', e') :: earlier <:+ (now, e) :: t.past := fun h => h.trans (List.suffix_cons _ _)
      constructor
      · intro n a hmem
        rcases List.mem_append.mp hmem with hmem | hmem
        · obtain ⟨now', e', earlier, hhandled, hreply⟩ := hreplies n a hmem
          exact ⟨now', e', earlier, hearlier hhandled, hreply⟩
        · refine ⟨now, e, t.past, List.suffix_rfl, ?_⟩
          simpa [hengine] using hmem
      · intro fetch hmem
        rcases List.mem_append.mp hmem with hmem | hmem
        · obtain ⟨now', e', earlier, hhandled, hfetch⟩ := hfetches fetch hmem
          exact ⟨now', e', earlier, hearlier hhandled, hfetch⟩
        · refine ⟨now, e, t.past, List.suffix_rfl, ?_⟩
          simpa [hengine] using hmem
  | idle | called | reported | completed => exact ⟨hreplies, hfetches⟩

end Traffic

end QuoteBoard.Engine
