/-
# What is done beside the engine

Most of what a service in rehearsal does leaves the engine alone. To follow what it does beside
it, little need be known of it: the display, which follows the effects of the engine; the fetches
that are under way; and the requests that clients wait for. `Does` says what a deed makes of
these, and deeds are put together one after the other.
-/

import QuoteBoard.Proofs.Engine.Panel
import QuoteBoard.Proofs.Lists
import QuoteBoard.Rehearsal.Script

namespace QuoteBoard.Rehearsal.Service

open QuoteBoard.Dashboard (AskError)
open QuoteBoard.Engine (Answer Asker Effect RequestId display_foldl_follow)
open QuoteBoard.Health (Display)

/-- Who asked for the fetches that are under way. -/
def askers (w : Service) : List Asker := w.errands.filterMap fun e => e.map Errand.asker

/-- The requests that clients wait for. -/
def awaited (w : Service) : List RequestId := w.clients.filterMap Client.awaits?

/-- What of a service has to do with the engine. -/
def atEngine (w : Service) : Engine.Loop × Nat × List (Option Errand) × List Client × Display :=
  (w.loop, w.calls, w.errands, w.clients, w.panel.display)

/-- What is done to a service beside its engine: effects are carried out, and requests are
answered. No client begins to wait. -/
structure Does (w w' : Service) (effects : List Effect) (answered : List RequestId) : Prop where
  loop_eq : w'.loop = w.loop
  calls_eq : w'.calls = w.calls
  display_eq : w'.panel.display = effects.foldl Display.follow w.panel.display
  askers_eq : w'.askers = w.askers ++ (effects.filterMap Effect.fetch?).map Prod.fst
  awaited_sublist : w'.awaited.Sublist w.awaited
  answered : w.awaited.Nodup → ∀ r ∈ answered, r ∉ w'.awaited

namespace Does

variable {w w' w'' : Service} {effects more : List Effect} {answered others : List RequestId}

theorem of_same (h : w'.atEngine = w.atEngine) : Does w w' [] [] := by
  obtain ⟨hloop, hcalls, herrands, hclients, hdisplay⟩ :
      w'.loop = w.loop ∧ w'.calls = w.calls ∧ w'.errands = w.errands ∧ w'.clients = w.clients ∧
        w'.panel.display = w.panel.display := by
    simpa only [atEngine, Prod.mk.injEq] using h
  refine ⟨hloop, hcalls, hdisplay, ?_, ?_, fun _ => nofun⟩
  · rw [askers, askers, herrands]
    exact (List.append_nil _).symm
  · rw [awaited, awaited, hclients]

theorem refl (w : Service) : Does w w [] [] := of_same rfl

theorem trans (h : Does w w' effects answered) (h' : Does w' w'' more others) :
    Does w w'' (effects ++ more) (answered ++ others) where
  loop_eq := h'.loop_eq.trans h.loop_eq
  calls_eq := h'.calls_eq.trans h.calls_eq
  display_eq := by rw [h'.display_eq, h.display_eq, List.foldl_append]
  askers_eq := by
    rw [h'.askers_eq, h.askers_eq, List.filterMap_append, List.map_append, List.append_assoc]
  awaited_sublist := h'.awaited_sublist.trans h.awaited_sublist
  answered hnodup r hr := by
    rcases List.mem_append.mp hr with hr | hr
    · exact fun hmem => h.answered hnodup r hr (h'.awaited_sublist.subset hmem)
    · exact h'.answered (hnodup.sublist h.awaited_sublist) r hr

/-- Without effects no fetch starts. -/
theorem askers_same (h : Does w w' [] answered) : w'.askers = w.askers :=
  h.askers_eq.trans (List.append_nil _)

/-- A request is answered as well. -/
theorem answering {r : RequestId} (h : Does w w' effects [])
    (hr : w.awaited.Nodup → r ∉ w'.awaited) : Does w w' effects [r] where
  loop_eq := h.loop_eq
  calls_eq := h.calls_eq
  display_eq := h.display_eq
  askers_eq := h.askers_eq
  awaited_sublist := h.awaited_sublist
  answered hnodup r' hr' := by
    obtain rfl := List.mem_singleton.mp hr'
    exact hr hnodup

end Does

variable (w : Service)

theorem does_see (o : Occurrence) : Does w (w.see o) [] [] := .of_same rfl

theorem does_wake (task : Task) : Does w (w.wake task) [] [] := by
  unfold wake
  split
  · exact .refl w
  · exact .of_same rfl

theorem awaited_wake (task : Task) : (w.wake task).awaited = w.awaited := by
  unfold wake
  split <;> rfl

theorem does_wakeAll {α : Type} (l : List α) (task : α → Task) :
    Does w (l.foldl (fun w a => w.wake (task a)) w) [] [] := by
  induction l generalizing w with
  | nil => exact .refl w
  | cons a rest ih => exact (does_wake w (task a)).trans (ih (w.wake (task a)))

theorem does_countRequest (answer : Option PriceMap) : Does w (w.countRequest answer) [] [] :=
  .of_same rfl

/-! ## Clients -/

/-- Clients change, and none of them begins to wait. -/
theorem does_change {clients : List Client}
    (h : (clients.filterMap Client.awaits?).Sublist w.awaited) : Does w { w with clients } [] [] :=
  ⟨rfl, rfl, rfl, (List.append_nil _).symm, h, fun _ => nofun⟩

/-- A client is changed that does not begin to wait. -/
theorem does_modifyClient (number : Nat) {f : Client → Client}
    (hf : ∀ c, (f c).awaits? = none) : Does w (w.modifyClient number f) [] [] := by
  refine does_change w ?_
  cases hc : w.clients[number]? with
  | none =>
      rw [List.modify_eq_self (List.getElem?_eq_none_iff.mp hc)]
      exact .refl _
  | some c =>
      obtain ⟨front, back, hclients, -, hmodify⟩ := exists_append_of_getElem? hc
      rw [hmodify, awaited, hclients, List.filterMap_append, List.filterMap_append,
        List.filterMap_cons_none (hf c)]
      exact (List.Sublist.refl _).append ((List.sublist_cons_self c back).filterMap _)

theorem awaits?_hear (answer : Except AskError Answer) (c : Client) :
    (c.hear answer).awaits? = none := by
  unfold Client.hear
  split
  · rfl
  all_goals
    next hpursuit => rw [Client.awaits?, hpursuit]

/-- A request is answered: nobody waits for it any more. -/
theorem does_deliver (r : RequestId) (answer : Except AskError Answer) :
    Does w (w.deliver r answer) [] [r] := by
  unfold deliver
  split
  · next hfind =>
      refine (Does.refl w).answering fun _ hmem => ?_
      obtain ⟨c, hc, hawaits⟩ := List.mem_filterMap.mp hmem
      exact absurd hawaits (of_decide_eq_false (List.findIdx?_eq_none_iff.mp hfind c hc))
  · next number hfind =>
      obtain ⟨hnumber, hawaits, -⟩ := List.findIdx?_eq_some_iff_getElem.mp hfind
      have hawaits := of_decide_eq_true hawaits
      have hheard := does_modifyClient w number (awaits?_hear answer)
      refine (hheard.answering fun hnodup hmem => ?_).trans (does_wake _ (.client number))
      obtain ⟨front, back, hclients, -, hmodify⟩ :=
        exists_append_of_getElem? (List.getElem?_eq_getElem hnumber)
      rw [awaited, hclients, List.filterMap_append, List.filterMap_cons_some hawaits] at hnodup
      rw [modifyClient, awaited, hmodify, List.filterMap_append,
        List.filterMap_cons_none (awaits?_hear answer _)] at hmem
      exact (List.nodup_middle.mp hnodup).notMem hmem

theorem does_dropAll (requests : List RequestId) :
    Does w (requests.foldl dropRequest w) [] requests := by
  induction requests generalizing w with
  | nil => exact .refl w
  | cons r rest ih => exact (does_deliver w r _).trans (ih (w.dropRequest r))

theorem does_leave (number step : Nat) (result : Except AskError Result) :
    Does w (w.leave number step result) [] [] := by
  have hgone := (does_modifyClient w number fun _ => rfl).trans
    (does_see (w.modifyClient number fun c => { c with pursuit := .gone }) (.reply step result))
  unfold leave
  extract_lets left
  split
  · exact hgone
  · exact hgone.trans (does_wake left .engine)

theorem does_rest (number period : Nat) : Does w (w.rest number period) [] [] :=
  (does_modifyClient w number fun _ => rfl).trans (.of_same rfl)

theorem does_finishTalk (number : Nat) (result : Except AskError Result) :
    Does w (w.finishTalk number result) [] [] := by
  unfold finishTalk
  split
  · exact .refl w
  · split
    · exact does_leave w ..
    · split
      · exact does_leave w ..
      · exact does_rest w ..

theorem does_sendOut (step : Nat) (talk : Talk) (rest : Option Nat) :
    Does w (w.sendOut step talk rest) [] [] := by
  refine (does_change w ?_).trans (does_wake _ _)
  rw [List.filterMap_append]
  exact (List.append_nil _).symm ▸ List.Sublist.refl _

theorem does_stopClients : Does w w.stopClients [] [] := by
  refine (does_change w ?_).trans (does_wakeAll _ w.resting Task.client)
  rw [List.filterMap_map]
  exact .refl _

/-! ## Effects and fetches -/

/-- An effect is carried out. -/
theorem does_perform (e : Effect) :
    Does w (w.perform e) [e] (e.reply?.map Prod.fst).toList := by
  have hdisplay : (w.panel.follow e).display = w.panel.display.follow e :=
    display_foldl_follow w.panel [e]
  have hpanel (hfetch : e.fetch? = none) : Does w { w with panel := w.panel.follow e } [e] [] := by
    refine ⟨rfl, rfl, hdisplay, ?_, .refl _, fun _ => nofun⟩
    rw [List.filterMap_cons_none hfetch]
    exact (List.append_nil _).symm
  cases e with
  | write | remove | measure => exact (hpanel rfl).trans (does_see _ _)
  | startSession => exact (hpanel rfl).trans (does_wake _ _)
  | reply request answer => exact (hpanel rfl).trans (does_deliver _ request (.ok answer))
  | startFetch asker keys =>
      have hstarted : Does w { w with
          panel := w.panel.follow (.startFetch asker keys)
          errands := w.errands ++ [some ⟨asker, .start w.batchSize keys, none⟩] }
          [.startFetch asker keys] [] :=
        ⟨rfl, rfl, hdisplay, List.filterMap_append, .refl _, fun _ => nofun⟩
      exact hstarted.trans (does_wake _ _)

theorem does_performAll (effects : List Effect) :
    Does w (effects.foldl perform w) effects ((effects.filterMap Effect.reply?).map Prod.fst) := by
  induction effects generalizing w with
  | nil => exact .refl w
  | cons e rest ih =>
      have hall := (does_perform w e).trans (ih (w.perform e))
      have hanswered : ((e :: rest).filterMap Effect.reply?).map Prod.fst =
          (e.reply?.map Prod.fst).toList ++ (rest.filterMap Effect.reply?).map Prod.fst := by
        cases hreply : e.reply? <;> simp [hreply]
      rw [hanswered]
      exact hall

theorem does_setPollAlarm : Does w w.setPollAlarm [] [] := by
  unfold setPollAlarm
  split
  · exact .of_same rfl
  · split
    · exact .refl w
    · exact .of_same rfl

theorem does_runSession : Does w w.runSession [] [] := by
  unfold runSession
  split
  · exact .of_same rfl
  · exact .refl w

/-- The answer to a request of a fetch is held back. -/
theorem does_hold {number : Nat} {errand : Errand}
    (herrand : w.errands[number]? = some (some errand)) (fetch : Fallback.Fetch)
    (answer : Option PriceMap) :
    Does w { w with
      errands := w.errands.set number (some ⟨errand.asker, fetch, some answer⟩)
      held := w.held ++ [number] } [] [] := by
  obtain ⟨front, back, herrands, hset, -⟩ := exists_append_of_getElem? herrand
  refine ⟨rfl, rfl, rfl, ?_, .refl _, fun _ => nofun⟩
  rw [askers, askers, hset, herrands, List.filterMap_append, List.filterMap_append]
  exact (List.append_nil _).symm

theorem does_release (count : Option Nat) : Does w (w.release count) [] [] := by
  have hheld (held : List Nat) (surroundings : Surroundings) :
      Does w { w with held, surroundings } [] [] := .of_same rfl
  exact (hheld _ _).trans (does_wakeAll _ _ Task.fetch)

end QuoteBoard.Rehearsal.Service
