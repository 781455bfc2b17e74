/-
# Ticks in three shapes

Prices of keys may be sent as one message for each tick, as an array of ticks, or as one
map from keys to quotes. A tick is usable if its key is not empty and its value spells a
finite number. Single ticks and arrays hold exactly the usable ticks. A map does not look
at its keys: it also holds the price of the empty key.
-/

import QuoteBoard.Feed.Update
import QuoteBoard.Proofs.Json.Document
import Mathlib.Data.List.Basic

namespace QuoteBoard.Feed

open QuoteBoard.Json (Value)

/-- What is said of a key: its price, or any other value. -/
structure Tick where
  key : Key
  value : Value

namespace Tick

/-- A tick as a message of its own or as an item of an array. -/
def payload (t : Tick) : Value := .ofMembers [("i", .text t.key), ("last_price", t.value)]

/-- A tick as an entry of a map: a quote under the key. -/
def quote (t : Tick) : String × Value := (t.key, .ofMembers [("last_price", t.value)])

/-- The key with the price that the value spells, if it is a finite number. -/
def priced? (t : Tick) : Option (Key × Binary64) := t.value.price?.map (t.key, ·)

/-- The key with its price, if the tick is usable. -/
def usable? (t : Tick) : Option (Key × Binary64) := if t.key = "" then none else t.priced?

/-- The tick names a price for the empty key. -/
def PricesEmptyKey (t : Tick) : Prop := t.key = "" ∧ t.value.price? ≠ none

end Tick

/-- The array of some ticks. -/
def arrayPayload (ticks : List Tick) : Value := .array (ticks.map Tick.payload)

/-- The map of some ticks. -/
def mapPayload (ticks : List Tick) : Value :=
  .ofMembers [("data", .ofMembers (ticks.map Tick.quote))]

/-! ## What each shape holds -/

/-- A field that is null holds no price, like one that is missing. -/
theorem present?_bind_price? (fields : List (String × Value)) (name : String) :
    (present? fields name).bind Value.price? = (Json.field? fields name).bind Value.price? := by
  unfold present?
  split
  · next hnull => rw [hnull]; rfl
  · next hnone => rw [hnone]
  · next v _ hfield => rw [hfield]

namespace Tick

variable (t : Tick)

theorem payload_eq :
    t.payload = .object [("i", .text t.key), ("last_price", t.value)] := by
  have hafter : ¬ "last_price" < "i" := by decide
  have hne : "last_price" ≠ "i" := by decide
  simp only [payload, Value.ofMembers, List.foldl_cons, List.foldl_nil, TextMap.insertEntry,
    if_neg hafter, if_neg hne]

theorem quote_eq : t.quote = (t.key, .object [("last_price", t.value)]) := rfl

theorem singleTick?_payload :
    singleTick? [("i", .text t.key), ("last_price", t.value)] = t.usable? := by
  change (if t.key = "" then none else _) = _
  rw [present?_bind_price?]
  rfl

theorem entryPrice?_quote : entryPrice? t.quote.2 = t.value.price? := by
  rw [quote_eq]
  exact present?_bind_price? _ _

/-- **A usable tick is a single tick; any other is not recognized.** -/
theorem classify?_payload :
    classify? t.payload = t.usable?.map fun p => (.singleTick, .prices (TextMap.ofList [p])) := by
  rw [payload_eq]
  rw [classify?, classifyObject?, singleTick?_payload]
  cases t.usable? with
  | none => rfl
  | some p => rfl

theorem usable?_eq_priced? (h : ¬ t.PricesEmptyKey) : t.usable? = t.priced? := by
  unfold usable?
  split
  · next hkey =>
      have hnone : t.value.price? = none := by
        by_contra hprice
        exact h ⟨hkey, hprice⟩
      rw [priced?, hnone, Option.map_none]
  · rfl

end Tick

/-- An array holds the usable ticks. -/
theorem classify?_arrayPayload (ticks : List Tick) :
    classify? (arrayPayload ticks) =
      some (.tickArray, .prices (TextMap.ofList (ticks.filterMap Tick.usable?))) := by
  have hitems : arrayPrices (ticks.map Tick.payload) =
      TextMap.ofList (ticks.filterMap Tick.usable?) := by
    rw [arrayPrices, List.filterMap_map]
    congr 1
    apply List.filterMap_congr
    intro t _
    rw [Function.comp_apply, t.payload_eq]
    exact t.singleTick?_payload
  rw [arrayPayload, classify?, hitems]

/-- A map of quotes holds under each key the price of its quote. -/
theorem get?_batchPrices (quotes : TextMap Value) (k : Key) :
    (batchPrices quotes.entries).get? k = (quotes.get? k).bind entryPrice? :=
  TextMap.get?_ofList_filterMap quotes.nodup_keys entryPrice? k

/-- To leave out the ticks that are not usable makes no difference to the usable ones. -/
theorem filterMap_usable?_filter (ticks : List Tick) :
    (ticks.filter fun t => t.usable?.isSome).filterMap Tick.usable? =
      ticks.filterMap Tick.usable? := by
  rw [List.filterMap_filter]
  apply List.filterMap_congr
  intro t _
  cases t.usable? <;> rfl

section Keys

variable {ticks : List Tick}

theorem nodup_quotes (hkeys : (ticks.map Tick.key).Nodup) :
    ((ticks.map Tick.quote).map Prod.fst).Nodup := by
  rw [List.map_map]
  exact hkeys

theorem filterMap_priced? (ticks : List Tick) :
    ticks.filterMap Tick.priced? =
      (ticks.map Tick.quote).filterMap fun p => (entryPrice? p.2).map (p.1, ·) := by
  rw [List.filterMap_map]
  apply List.filterMap_congr
  intro t _
  rw [Function.comp_apply, t.entryPrice?_quote]
  rfl

/-- A map holds the ticks with a price, whatever their keys. -/
theorem classify?_mapPayload (hkeys : (ticks.map Tick.key).Nodup) :
    classify? (mapPayload ticks) =
      some (.batchMap, .prices (TextMap.ofList (ticks.filterMap Tick.priced?))) := by
  have hentries : batchPrices (TextMap.ofList (ticks.map Tick.quote)).entries =
      TextMap.ofList (ticks.filterMap Tick.priced?) := by
    apply TextMap.ext_get?
    intro k
    rw [get?_batchPrices, TextMap.get?_ofList,
      TextMap.lookup_reverse_of_nodup (nodup_quotes hkeys), filterMap_priced?,
      TextMap.get?_ofList_filterMap (nodup_quotes hkeys)]
  rw [mapPayload, Json.ofMembers_eq (ticks.map Tick.quote)]
  change some (Shape.batchMap, Update.prices (batchPrices _)) = _
  rw [hentries]

/-- The price that a map holds under the key of a tick. -/
theorem get?_priced_of_mem (hkeys : (ticks.map Tick.key).Nodup) {t : Tick} (ht : t ∈ ticks) :
    (TextMap.ofList (ticks.filterMap Tick.priced?)).get? t.key = t.value.price? := by
  have hquote : (ticks.map Tick.quote).lookup t.key = some t.quote.2 :=
    TextMap.lookup_of_mem_of_nodup (nodup_quotes hkeys) (List.mem_map_of_mem ht)
  rw [filterMap_priced?, TextMap.get?_ofList_filterMap (nodup_quotes hkeys), hquote,
    Option.bind_some, t.entryPrice?_quote]

/-- No usable tick has the empty key. -/
theorem lookup_usable_emptyKey (ticks : List Tick) :
    (ticks.filterMap Tick.usable?).reverse.lookup "" = none := by
  rw [TextMap.lookup_eq_none_iff_not_mem, List.map_reverse, List.mem_reverse]
  intro hmem
  obtain ⟨p, hp, hempty⟩ := List.mem_map.mp hmem
  obtain ⟨t, -, husable⟩ := List.mem_filterMap.mp hp
  unfold Tick.usable? at husable
  split at husable
  · cases husable
  · next hkey =>
      obtain ⟨price, -, rfl⟩ := Option.map_eq_some_iff.mp husable
      exact hkey hempty

end Keys

end QuoteBoard.Feed
