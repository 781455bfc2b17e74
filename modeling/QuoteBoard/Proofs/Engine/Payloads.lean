/-
# The shape of a message does not matter

The engine takes in ticks one by one, as an array or as a map. However they are sent, it
is left with the same prices and the same text in every cell, although a message for each
tick writes cells again and again: batches are confluent, and only the last price of each
key decides. What a tick without a finite number says is passed over. A tick for the empty
key is passed over as well where it stands by itself or in an array, but not in a map, so
the shapes agree exactly for ticks of which none prices the empty key.
-/

import QuoteBoard.Proofs.Board.Confluence
import QuoteBoard.Proofs.Engine.Cells
import QuoteBoard.Proofs.Feed.Ticks

namespace QuoteBoard.Engine

open QuoteBoard.Feed (Tick arrayPayload mapPayload)
open QuoteBoard.Health (Display)
open QuoteBoard.Json (Value)

namespace State

/-- Handle the value that a message of the feed stands for. -/
def onPayload (v : Value) (s : State) : Outcome :=
  match Feed.classify? v with
  | none => (s, [.measure (.feedMessage none)])
  | some (shape, u) =>
    let (s, effects) := s.update u
    (s, .measure (.feedMessage (some shape)) :: effects)

/-- Handle values one after the other. -/
def onPayloads (s : State) : List Value → Outcome
  | [] => (s, [])
  | v :: rest =>
    let (s, effects) := s.onPayload v
    let (s, more) := s.onPayloads rest
    (s, effects ++ more)

/-- A message is handled as the value that it stands for. -/
theorem onMessage_of_ofText? {text : String} {v : Value} (h : Value.ofText? text = some v)
    (s : State) : s.onMessage text = s.onPayload v := by
  cases hclass : Feed.classify? v with
  | none => simp only [onMessage, onPayload, Feed.read, h, hclass]
  | some classified => simp only [onMessage, onPayload, Feed.read, h, hclass]

end State

/-- Seen from a state, two outcomes leave the same prices and rows, and they leave the same text in
every cell of a display that has shown the rows of the state. -/
structure SameView (s : State) (o p : Outcome) : Prop where
  desk : o.1.desk = p.1.desk
  cells : s.board.NamesRows → ∀ d : Display, Mirrors d.cells s.board →
    (o.2.foldl Display.follow d).cells = (p.2.foldl Display.follow d).cells

/-! ## Prices and cells after values -/

/-- The operation that a value stands for, if it is recognized. -/
def payloadOperation? (v : Value) : Option Operation :=
  (Feed.classify? v).map fun classified => updateOperation classified.2

theorem carries_onPayload (s : State) (v : Value) :
    Carries (s.onPayload v) (performed s.desk (payloadOperation? v)) := by
  unfold State.onPayload payloadOperation?
  cases Feed.classify? v with
  | none => exact ⟨rfl, rfl⟩
  | some classified => exact (carries_update s classified.2).measure _

/-- Cells that mirror the rows before an outcome mirror them after it. -/
structure KeepsMirror (s : State) (o : Outcome) : Prop where
  names : o.1.board.NamesRows
  mirrors : ∀ d : Display, Mirrors d.cells s.board →
    Mirrors (o.2.foldl Display.follow d).cells o.1.board

theorem Carries.keepsMirror {s : State} {o : Outcome} {op : Option Operation}
    (h : Carries o (performed s.desk op)) (hnames : s.board.NamesRows) : KeepsMirror s o := by
  have hboard : o.1.board = (performed s.desk op).desk.board := congrArg Desk.board h.desk
  refine ⟨?_, fun d hd => ?_⟩
  · rw [hboard]
    cases op with
    | none => exact hnames
    | some op => exact Desk.namesRows_perform (d := s.desk) hnames op
  · rw [hboard, cells_follow_filter, h.cells, cells_follow_cellEffects]
    cases op with
    | none => exact hd
    | some op => exact Mirrors.perform (d := s.desk) hd hnames op

theorem keepsMirror_onPayloads {s : State} (hnames : s.board.NamesRows) (vs : List Value) :
    KeepsMirror s (s.onPayloads vs) := by
  induction vs generalizing s with
  | nil => exact ⟨hnames, fun d hd => hd⟩
  | cons v rest ih =>
      have hfirst := (carries_onPayload s v).keepsMirror hnames
      have hrest := ih hfirst.names
      refine ⟨hrest.names, fun d hd => ?_⟩
      have hd := hrest.mirrors _ (hfirst.mirrors d hd)
      rw [← List.foldl_append] at hd
      exact hd

/-- Outcomes that leave the same prices and rows leave the same cells. -/
theorem SameView.of_desk {s : State} {o p : Outcome} (hdesk : o.1.desk = p.1.desk)
    (ho : s.board.NamesRows → KeepsMirror s o) (hp : s.board.NamesRows → KeepsMirror s p) :
    SameView s o p := by
  refine ⟨hdesk, fun hnames d hd => TextMap.ext_get? fun id => ?_⟩
  have hboard : o.1.board = p.1.board := congrArg Desk.board hdesk
  rw [(ho hnames).mirrors d hd id, (hp hnames).mirrors d hd id, hboard]

/-! ## Ticks -/

section Ticks

variable (s : State) (ticks : List Tick)

theorem desk_onPayload_prices {v : Value} {shape : Feed.Shape} {batch : PriceMap}
    (h : Feed.classify? v = some (shape, .prices batch)) :
    (s.onPayload v).1.desk = s.desk.takeIn [batch.entries] := by
  have hdesk := (carries_onPayload s v).desk
  rw [payloadOperation?, h] at hdesk
  exact hdesk

/-- A tick that is not usable is dropped. -/
theorem onPayload_of_not_usable {t : Tick} (h : t.usable? = none) :
    s.onPayload t.payload = (s, [.measure (.feedMessage none)]) := by
  rw [State.onPayload, t.classify?_payload, h]
  rfl

/-- Single ticks are taken in as batches of one price each. -/
theorem desk_onPayloads_ticks :
    (s.onPayloads (ticks.map Tick.payload)).1.desk =
      s.desk.takeIn ((ticks.filterMap Tick.usable?).map ([·])) := by
  induction ticks generalizing s with
  | nil => rfl
  | cons t rest ih =>
      have hcons : (s.onPayloads ((t :: rest).map Tick.payload)).1.desk =
          ((s.onPayload t.payload).1.onPayloads (rest.map Tick.payload)).1.desk := rfl
      rw [hcons, ih]
      cases husable : t.usable? with
      | none => rw [onPayload_of_not_usable s husable, List.filterMap_cons_none husable]
      | some p =>
          have hone : Feed.classify? t.payload =
              some (.singleTick, .prices (TextMap.ofList [p])) := by
            rw [t.classify?_payload, husable, Option.map_some]
          rw [desk_onPayload_prices s hone, List.filterMap_cons_some husable]
          rfl

theorem lastPrice?_singletons (pairs : List (Key × Binary64)) (k : Key) :
    lastPrice? (pairs.map ([·])) k = pairs.reverse.lookup k := by
  rw [lastPrice?, ← List.flatMap_def, List.flatMap_singleton']

theorem lastPrice?_entries (batch : PriceMap) (k : Key) :
    lastPrice? [batch.entries] k = batch.get? k := by
  rw [lastPrice?, List.flatten_singleton, TextMap.lookup_reverse_entries]

/-- One batch of some prices leaves what a batch for each of them leaves. -/
theorem takeIn_singletons (d : Desk) (pairs : List (Key × Binary64)) :
    d.takeIn [(TextMap.ofList pairs).entries] = d.takeIn (pairs.map ([·])) := by
  apply d.takeIn_congr
  intro k
  rw [lastPrice?_entries, lastPrice?_singletons, TextMap.get?_ofList]

/-- **An array of ticks leaves what the single ticks leave.** -/
theorem sameView_arrayPayload :
    SameView s (s.onPayload (arrayPayload ticks)) (s.onPayloads (ticks.map Tick.payload)) := by
  refine SameView.of_desk ?_ (carries_onPayload s _).keepsMirror (keepsMirror_onPayloads · _)
  rw [desk_onPayload_prices s (Feed.classify?_arrayPayload ticks), takeIn_singletons,
    desk_onPayloads_ticks]

/-- A map of ticks leaves what single ticks leave, if none of them prices the empty key. -/
theorem sameView_mapPayload (hkeys : (ticks.map Tick.key).Nodup)
    (hempty : ∀ t ∈ ticks, ¬ t.PricesEmptyKey) :
    SameView s (s.onPayload (mapPayload ticks)) (s.onPayloads (ticks.map Tick.payload)) := by
  have husable : ticks.filterMap Tick.priced? = ticks.filterMap Tick.usable? :=
    List.filterMap_congr fun t ht => (t.usable?_eq_priced? (hempty t ht)).symm
  refine SameView.of_desk ?_ (carries_onPayload s _).keepsMirror (keepsMirror_onPayloads · _)
  rw [desk_onPayload_prices s (Feed.classify?_mapPayload hkeys), husable, takeIn_singletons,
    desk_onPayloads_ticks]

end Ticks

/-! ## The empty key -/

section EmptyKey

variable (s : State) {ticks : List Tick}

/-- A map with a price for the empty key puts it into the cache. -/
theorem emptyKey_after_mapPayload (hkeys : (ticks.map Tick.key).Nodup) {t : Tick} (ht : t ∈ ticks)
    (hprices : t.PricesEmptyKey) :
    (s.onPayload (mapPayload ticks)).1.cache.get? "" = t.value.price? := by
  have hprice := Feed.get?_priced_of_mem hkeys ht
  rw [hprices.1] at hprice
  have hdesk := congrArg (fun d => d.cache.get? "")
    (desk_onPayload_prices s (Feed.classify?_mapPayload hkeys))
  refine hdesk.trans ?_
  rw [Desk.get?_takeIn, lastPrice?_entries, hprice]
  exact Option.or_of_isSome (Option.isSome_iff_ne_none.mpr hprices.2)

/-- Single ticks leave the empty key alone. -/
theorem emptyKey_after_payloads (ticks : List Tick) :
    (s.onPayloads (ticks.map Tick.payload)).1.cache.get? "" = s.cache.get? "" := by
  have hdesk := congrArg (fun d => d.cache.get? "") (desk_onPayloads_ticks s ticks)
  refine hdesk.trans ?_
  rw [Desk.get?_takeIn, lastPrice?_singletons, Feed.lookup_usable_emptyKey, Option.none_or]
  rfl

/-- From some state a map and the single ticks differ, if one of them prices the empty key. -/
theorem not_sameView_of_pricesEmptyKey (hkeys : (ticks.map Tick.key).Nodup) {t : Tick}
    (ht : t ∈ ticks) (hprices : t.PricesEmptyKey) :
    ¬ SameView (.initial 1000) (State.onPayload (mapPayload ticks) (.initial 1000))
      (State.onPayloads (.initial 1000) (ticks.map Tick.payload)) := by
  intro h
  have hcache := congrArg (fun d => d.cache.get? "") h.desk
  have hmap := emptyKey_after_mapPayload (.initial 1000) hkeys ht hprices
  have hsingle := emptyKey_after_payloads (.initial 1000) ticks
  exact hprices.2 (hmap.symm.trans (hcache.trans hsingle))

end EmptyKey

/-! ## Unusable ticks -/

section Unusable

variable (s : State) (ticks : List Tick)

theorem onPayload_congr {v w : Value} (h : Feed.classify? v = Feed.classify? w) :
    s.onPayload v = s.onPayload w := by
  rw [State.onPayload, State.onPayload, h]

/-- Ticks that are not usable leave no trace in an array. -/
theorem onPayload_arrayPayload_usable :
    s.onPayload (arrayPayload ticks) =
      s.onPayload (arrayPayload (ticks.filter fun t => t.usable?.isSome)) := by
  apply onPayload_congr
  rw [Feed.classify?_arrayPayload, Feed.classify?_arrayPayload, Feed.filterMap_usable?_filter]

/-- Ticks that are not usable leave no trace in a map, if none of them prices the empty key. -/
theorem onPayload_mapPayload_usable (hkeys : (ticks.map Tick.key).Nodup)
    (hempty : ∀ t ∈ ticks, ¬ t.PricesEmptyKey) :
    s.onPayload (mapPayload ticks) =
      s.onPayload (mapPayload (ticks.filter fun t => t.usable?.isSome)) := by
  have hfiltered : ((ticks.filter fun t => t.usable?.isSome).map Tick.key).Nodup :=
    hkeys.sublist (List.filter_sublist.map _)
  have hpriced : ∀ some : List Tick, (∀ t ∈ some, t ∈ ticks) →
      some.filterMap Tick.priced? = some.filterMap Tick.usable? := fun _ hsub =>
    List.filterMap_congr fun t ht => (t.usable?_eq_priced? (hempty t (hsub t ht))).symm
  apply onPayload_congr
  rw [Feed.classify?_mapPayload hkeys, Feed.classify?_mapPayload hfiltered,
    hpriced ticks fun _ ht => ht, hpriced _ fun _ ht => List.mem_of_mem_filter ht,
    Feed.filterMap_usable?_filter]

end Unusable

/-- **The shapes agree exactly where no price is named for the empty key.** Ticks of different keys
leave the same prices, rows and cells from every state, whether they are sent one by one or as an
array. Sent as a map they do so too if and only if none of them has both the empty key and a
number. A tick without a number, or with the empty key, is dropped where it stands by itself and
makes no difference in an array; nor does it in a map, if none there prices the empty key. -/
theorem shapes_agree_iff {ticks : List Tick} (hkeys : (ticks.map Tick.key).Nodup) :
    (∀ s : State, SameView s (s.onPayload (arrayPayload ticks))
      (s.onPayloads (ticks.map Tick.payload))) ∧
    ((∀ s : State, SameView s (s.onPayload (mapPayload ticks))
      (s.onPayloads (ticks.map Tick.payload))) ↔ ∀ t ∈ ticks, ¬ t.PricesEmptyKey) ∧
    ∀ s : State,
      (∀ t ∈ ticks, t.usable? = none →
        s.onPayload t.payload = (s, [.measure (.feedMessage none)])) ∧
      s.onPayload (arrayPayload ticks) =
        s.onPayload (arrayPayload (ticks.filter fun t => t.usable?.isSome)) ∧
      ((∀ t ∈ ticks, ¬ t.PricesEmptyKey) → s.onPayload (mapPayload ticks) =
        s.onPayload (mapPayload (ticks.filter fun t => t.usable?.isSome))) := by
  refine ⟨fun s => sameView_arrayPayload s ticks, ⟨?_, ?_⟩, fun s => ⟨?_, ?_, ?_⟩⟩
  · intro hagree t ht hprices
    exact not_sameView_of_pricesEmptyKey hkeys ht hprices (hagree _)
  · intro hempty s
    exact sameView_mapPayload s ticks hkeys hempty
  · intro t _ husable
    exact onPayload_of_not_usable s husable
  · exact onPayload_arrayPayload_usable s ticks
  · intro hempty
    exact onPayload_mapPayload_usable s ticks hkeys hempty

/-- A numeral in a text, a value that is no number, and null for the empty key. -/
def oddTicks : List Tick := [⟨"A", .text " 4.5 "⟩, ⟨"B", .boolean true⟩, ⟨"", .null⟩]

/-- An engine with a row that is bound to the keys of `oddTicks`. -/
def oddRows : State :=
  stateAfter 1000 0 [(1, .command (.replaceRows "u/" [{ id := "u/1", candidates := ["B", "A"] }]))]

/-- The odd ticks show the one price among them, in each of the three shapes. -/
theorem shapes_agree_iff_odd :
    (oddTicks.map Tick.key).Nodup ∧
      SameView oddRows (oddRows.onPayload (arrayPayload oddTicks))
        (oddRows.onPayloads (oddTicks.map Tick.payload)) ∧
      SameView oddRows (oddRows.onPayload (mapPayload oddTicks))
        (oddRows.onPayloads (oddTicks.map Tick.payload)) ∧
      (oddRows.onPayload (mapPayload oddTicks)).1.board.shownIn "u/1" = some "4.50" := by
  have hkeys : (oddTicks.map Tick.key).Nodup := by decide
  have hempty : ∀ t ∈ oddTicks, ¬ t.PricesEmptyKey := by
    intro t ht
    simp only [oddTicks, List.mem_cons, List.not_mem_nil, or_false] at ht
    rcases ht with rfl | rfl | rfl
    · exact fun h => absurd h.1 (by decide)
    · exact fun h => absurd h.1 (by decide)
    · exact fun h => h.2 rfl
  obtain ⟨harray, hmap, -⟩ := shapes_agree_iff hkeys
  exact ⟨hkeys, harray oddRows, hmap.mpr hempty oddRows, by decide +kernel⟩

/-- The shapes do not agree on all ticks: a map gives the empty key a price. -/
theorem not_forall_shapes_agree :
    ¬ ∀ (ticks : List Tick) (s : State), (ticks.map Tick.key).Nodup →
      SameView s (s.onPayload (mapPayload ticks)) (s.onPayloads (ticks.map Tick.payload)) := by
  intro h
  have hprices : (⟨"", .number (.integer 5)⟩ : Tick).PricesEmptyKey := ⟨rfl, by decide +kernel⟩
  have hkeys : ([⟨"", .number (.integer 5)⟩].map Tick.key).Nodup := by decide
  exact not_sameView_of_pricesEmptyKey hkeys List.mem_cons_self hprices (h _ _ hkeys)

end QuoteBoard.Engine
