/-
# What a message says

A message is read by trying one shape after the other, and in each of them fields that may be
missing, null, blank, a number or a text. What comes of it is said here without any order of tries:
which fields make a scrip tick, which make a tick of a key, and what a map or an array has for a key
if it names the key more than once. A message says something (`Says`) if its fields make up one of
the shapes and none of those that come before it; reading finds exactly this, and drops every other
message. A price is a price only if it is finite, so no message brings any other.
-/

import QuoteBoard.Proofs.Feed.Ticks
import QuoteBoard.Proofs.Price.History

namespace QuoteBoard

/-! ## Values as numbers -/

namespace Json

/-- A value spells a number: it is one, or a text of one, perhaps with blanks around it. -/
inductive Value.Spells : Value → Binary64 → Prop
  | number (n : Number) : Spells (.number n) n.toBinary64
  | text {s : String} {x : Binary64} (h : Binary64.ofText? (Text.trim s) = some x) :
      Spells (.text s) x

namespace Value

variable {v : Value} {x : Binary64}

/-- The price of a value is the number that it spells, if that is finite. -/
theorem price?_eq_some_iff : v.price? = some x ↔ v.Spells x ∧ x.isFinite = true := by
  have hnumber (n : Number) : (Value.number n).price? = some x ↔
      n.toBinary64 = x ∧ x.isFinite = true := by
    simp only [price?, Option.filter_eq_some_iff, Option.some.injEq]
  have htext (s : String) : (Value.text s).price? = some x ↔
      Binary64.ofText? (Text.trim s) = some x ∧ x.isFinite = true := by
    simp only [price?, Option.filter_eq_some_iff]
  cases v with
  | number n =>
      rw [hnumber]
      refine and_congr_left fun _ => ⟨?_, ?_⟩
      · rintro rfl
        exact .number n
      · rintro ⟨⟩
        rfl
  | text s =>
      rw [htext]
      refine and_congr_left fun _ => ⟨.text, ?_⟩
      intro hspells
      cases hspells with
      | text h => exact h
  | null | boolean | array | object =>
      refine iff_of_false (fun h => ?_) fun h => ?_
      · simp [price?] at h
      · cases h.1

theorem price?_eq_none_iff : v.price? = none ↔ ∀ x, v.Spells x → x.isFinite = false := by
  rw [Option.eq_none_iff_forall_ne_some]
  refine forall_congr' fun x => ?_
  rw [ne_eq, price?_eq_some_iff, not_and, Bool.not_eq_true]

end Value

end Json

namespace Feed

open QuoteBoard.Json (Number Value field?)

/-! ## Fields -/

/-- Some fields have a value under a name, and it is not null. -/
def Holds (fields : List (String × Value)) (name : String) (v : Value) : Prop :=
  field? fields name = some v ∧ v ≠ .null

/-- A value names a code: a number does by its text, and a text without the blanks around it, unless
nothing is left. -/
inductive NamesCode : Value → String → Prop
  | number (n : Number) : NamesCode (.number n) n.text
  | text {s : String} (h : Text.trim s ≠ "") : NamesCode (.text s) (Text.trim s)

/-- The last price of a quote is a finite number. -/
def LastPrice (fields : List (String × Value)) (price : Binary64) : Prop :=
  ∃ v, field? fields "last_price" = some v ∧ v.Spells price ∧ price.isFinite = true

section Fields

variable {fields : List (String × Value)} {name : String} {v : Value}

theorem present?_eq_some_iff : present? fields name = some v ↔ Holds fields name v := by
  unfold present? Holds
  cases hfield : field? fields name with
  | none => simp
  | some w => cases w <;> simp +contextual [eq_comm]

theorem present?_eq_none_iff : present? fields name = none ↔ ∀ v, ¬ Holds fields name v := by
  rw [Option.eq_none_iff_forall_ne_some]
  exact forall_congr' fun v => not_congr present?_eq_some_iff

theorem scripCode?_eq_some_iff {code : String} : scripCode? v = some code ↔ NamesCode v code := by
  have htext (s : String) : scripCode? (.text s) = some code ↔
      Text.trim s ≠ "" ∧ Text.trim s = code := by
    simp only [scripCode?, Value.scalarText?, Text.nonBlank, Option.ite_none_left_eq_some,
      Option.some.injEq, ne_eq]
  cases v with
  | number n =>
      constructor
      · intro h
        rw [← Option.some.inj h]
        exact .number n
      · rintro ⟨⟩
        rfl
  | text s =>
      rw [htext]
      constructor
      · rintro ⟨hne, rfl⟩
        exact .text hne
      · intro hcode
        cases hcode with
        | text hne => exact ⟨hne, rfl⟩
  | null | boolean | array | object => exact iff_of_false nofun nofun

theorem lastPrice_iff {price : Binary64} :
    (present? fields "last_price").bind Value.price? = some price ↔ LastPrice fields price := by
  rw [present?_bind_price?, Option.bind_eq_some_iff]
  exact exists_congr fun v => and_congr_right fun _ => Value.price?_eq_some_iff

end Fields

/-! ## Ticks -/

/-- A scrip tick: the code that a field names, and a price field. That is `ltp`, and `last_price` if
`ltp` is missing or null. -/
structure ScripTick (fields : List (String × Value)) (code : String) (price : Value) : Prop where
  coded : ∃ v, field? fields "scripCode" = some v ∧ NamesCode v code
  priced : Holds fields "ltp" price ∨
    (∀ v, ¬ Holds fields "ltp" v) ∧ Holds fields "last_price" price

/-- A tick of a key: a text that is not empty, and a finite price. -/
structure KeyTick (fields : List (String × Value)) (key : Key) (price : Binary64) : Prop where
  keyed : field? fields "i" = some (.text key)
  named : key ≠ ""
  priced : LastPrice fields price

/-- An item of an array prices a key: it is a tick of the key. -/
def ItemPrices (item : Value) (key : Key) (price : Binary64) : Prop :=
  ∃ fields, item = .object fields ∧ KeyTick fields key price

/-- The price of what stands in a map: the last price of a quote, or a price itself. -/
inductive EntryPrice : Value → Binary64 → Prop
  | quote {fields : List (String × Value)} {price : Binary64} (h : LastPrice fields price) :
      EntryPrice (.object fields) price
  | plain {v : Value} {price : Binary64} (h : v.Spells price) (hfinite : price.isFinite = true) :
      EntryPrice v price

/-- An entry of a map prices its key. -/
def EntryPrices (entry : String × Value) (key : Key) (price : Binary64) : Prop :=
  entry.1 = key ∧ EntryPrice entry.2 price

section Ticks

variable {fields : List (String × Value)} {key : Key} {price : Binary64}

theorem priceField_eq_some_iff {v : Value} :
    (present? fields "ltp" <|> present? fields "last_price") = some v ↔
      Holds fields "ltp" v ∨ (∀ w, ¬ Holds fields "ltp" w) ∧ Holds fields "last_price" v := by
  rw [Option.orElse_eq_orElse, Option.orElse_eq_or, Option.or_eq_some_iff, present?_eq_some_iff,
    present?_eq_none_iff, present?_eq_some_iff]

theorem scripTick?_eq_some_iff {code : String} {shown : Option Binary64} :
    scripTick? fields = some (code, shown) ↔
      ∃ v, ScripTick fields code v ∧ v.price? = shown := by
  simp only [scripTick?, Option.bind_eq_bind, Option.bind_eq_some_iff, Option.pure_def,
    Option.some.injEq, Prod.mk.injEq, priceField_eq_some_iff, scripCode?_eq_some_iff]
  constructor
  · rintro ⟨code, hcode, v, hprice, rfl, hshown⟩
    exact ⟨v, ⟨hcode, hprice⟩, hshown⟩
  · rintro ⟨v, ⟨hcode, hprice⟩, hshown⟩
    exact ⟨code, hcode, v, hprice, rfl, hshown⟩

theorem singleTick?_eq_some_iff : singleTick? fields = some (key, price) ↔
    KeyTick fields key price := by
  unfold singleTick?
  constructor
  · intro h
    split at h
    · next named hfield =>
        split at h
        · cases h
        · next hne =>
            obtain ⟨p, hp, heq⟩ := Option.map_eq_some_iff.mp h
            cases heq
            exact ⟨hfield, hne, lastPrice_iff.mp hp⟩
    · cases h
  · rintro ⟨hfield, hne, hprice⟩
    rw [hfield]
    simp only [if_neg hne, lastPrice_iff.mpr hprice, Option.map_some]

theorem entryPrice?_eq_some_iff {v : Value} : entryPrice? v = some price ↔ EntryPrice v price := by
  have hplain : v.price? = some price → EntryPrice v price := by
    intro h
    obtain ⟨hspells, hfinite⟩ := Value.price?_eq_some_iff.mp h
    exact .plain hspells hfinite
  constructor
  · intro h
    cases v with
    | object fields => exact .quote (lastPrice_iff.mp h)
    | number | text | null | boolean | array => exact hplain h
  · intro h
    cases h with
    | quote h => exact lastPrice_iff.mpr h
    | plain hspells hfinite =>
        have hprice := Value.price?_eq_some_iff.mpr ⟨hspells, hfinite⟩
        cases hspells <;> exact hprice

end Ticks

/-! ## Parts that price keys -/

/-- Among some parts the last one that prices a key gives it this price. -/
def LastGiven {α : Type} (prices : α → Key → Binary64 → Prop) (parts : List α) (key : Key)
    (price : Binary64) : Prop :=
  ∃ before part after, parts = before ++ part :: after ∧ prices part key price ∧
    ∀ later ∈ after, ∀ other, ¬ prices later key other

/-- Where each part prices one key at most, the last price of a key among the prices is that of the
last part that prices it. -/
theorem lastOf_filterMap_iff {α : Type} {prices : α → Key → Binary64 → Prop}
    {priced? : α → Option (Key × Binary64)}
    (hprices : ∀ part key price, priced? part = some (key, price) ↔ prices part key price)
    {parts : List α} {key : Key} {price : Binary64} :
    LastOf (parts.filterMap priced?) key price ↔ LastGiven prices parts key price := by
  have hnot (after : List α) : key ∉ (after.filterMap priced?).map Prod.fst ↔
      ∀ later ∈ after, ∀ other, ¬ prices later key other := by
    simp only [List.mem_map, List.mem_filterMap, Prod.exists, hprices]
    constructor
    · intro h later hlater other hother
      exact h ⟨key, other, ⟨later, hlater, hother⟩, rfl⟩
    · rintro h ⟨_, other, ⟨later, hlater, hother⟩, rfl⟩
      exact h later hlater other hother
  constructor
  · rintro ⟨before, after, hsplit, hlast⟩
    obtain ⟨front, back, rfl, -, hback⟩ := List.filterMap_eq_append_iff.mp hsplit
    obtain ⟨skipped, part, rest, rfl, -, hpart, rfl⟩ := List.filterMap_eq_cons_iff.mp hback
    refine ⟨front ++ skipped, part, rest, by simp, (hprices ..).mp hpart, (hnot rest).mp hlast⟩
  · rintro ⟨before, part, after, rfl, hpart, hlast⟩
    refine ⟨before.filterMap priced?, after.filterMap priced?, ?_, (hnot after).mpr hlast⟩
    rw [List.filterMap_append, List.filterMap_cons_some ((hprices ..).mpr hpart)]

theorem get?_ofList_filterMap_iff {α : Type} {prices : α → Key → Binary64 → Prop}
    {priced? : α → Option (Key × Binary64)}
    (hprices : ∀ part key price, priced? part = some (key, price) ↔ prices part key price)
    {parts : List α} {key : Key} {price : Binary64} :
    (TextMap.ofList (parts.filterMap priced?)).get? key = some price ↔
      LastGiven prices parts key price := by
  rw [TextMap.get?_ofList, lookup_reverse_eq_some_iff, lastOf_filterMap_iff hprices]

theorem get?_batchPrices_iff {data : List (String × Value)} {key : Key} {price : Binary64} :
    (batchPrices data).get? key = some price ↔ LastGiven EntryPrices data key price := by
  apply get?_ofList_filterMap_iff
  intro entry key price
  simp only [Option.map_eq_some_iff, Prod.mk.injEq, entryPrice?_eq_some_iff]
  constructor
  · rintro ⟨price, h, hkey, rfl⟩
    exact ⟨hkey, h⟩
  · rintro ⟨hkey, h⟩
    exact ⟨price, h, hkey, rfl⟩

theorem get?_arrayPrices_iff {items : List Value} {key : Key} {price : Binary64} :
    (arrayPrices items).get? key = some price ↔ LastGiven ItemPrices items key price := by
  apply get?_ofList_filterMap_iff
  intro item key price
  cases item with
  | object fields =>
      refine singleTick?_eq_some_iff.trans ⟨fun h => ⟨fields, rfl, h⟩, ?_⟩
      rintro ⟨_, ⟨⟩, h⟩
      exact h
  | number | text | null | boolean | array => exact iff_of_false nofun nofun

/-! ## Messages -/

/-- What a value says as a message, and in which shape. A shape counts only if none that comes
before it does; an array has one shape. The prices that a message brings are exactly those that its
parts have for their keys. -/
inductive Says : Value → Shape → Update → Prop
  | scripTick {fields : List (String × Value)} {code : String} {price : Value}
      (h : ScripTick fields code price) :
      Says (.object fields) .scripTick (.scrip code price.price?)
  | singleTick {fields : List (String × Value)} {batch : PriceMap}
      (hscrip : ∀ code price, ¬ ScripTick fields code price)
      (hkey : ∃ key price, KeyTick fields key price)
      (hbatch : ∀ key price, batch.get? key = some price ↔ KeyTick fields key price) :
      Says (.object fields) .singleTick (.prices batch)
  | batchMap {fields data : List (String × Value)} {batch : PriceMap}
      (hscrip : ∀ code price, ¬ ScripTick fields code price)
      (hkey : ∀ key price, ¬ KeyTick fields key price)
      (hdata : field? fields "data" = some (.object data))
      (hbatch : ∀ key price, batch.get? key = some price ↔ LastGiven EntryPrices data key price) :
      Says (.object fields) .batchMap (.prices batch)
  | tickArray {items : List Value} {batch : PriceMap}
      (hbatch : ∀ key price, batch.get? key = some price ↔ LastGiven ItemPrices items key price) :
      Says (.array items) .tickArray (.prices batch)

theorem eq_of_get?_iff {P : Key → Binary64 → Prop} {batch other : PriceMap}
    (hbatch : ∀ key price, batch.get? key = some price ↔ P key price)
    (hother : ∀ key price, other.get? key = some price ↔ P key price) : batch = other :=
  TextMap.ext_get? fun key => Option.ext fun price =>
    (hbatch key price).trans (hother key price).symm

section Objects

variable {fields : List (String × Value)}

theorem scripTick?_eq_none_iff :
    scripTick? fields = none ↔ ∀ code price, ¬ ScripTick fields code price := by
  rw [Option.eq_none_iff_forall_ne_some]
  constructor
  · intro h code price htick
    exact h (code, price.price?) (scripTick?_eq_some_iff.mpr ⟨price, htick, rfl⟩)
  · rintro h ⟨code, shown⟩ htick
    obtain ⟨price, htick, -⟩ := scripTick?_eq_some_iff.mp htick
    exact h code price htick

theorem singleTick?_eq_none_iff :
    singleTick? fields = none ↔ ∀ key price, ¬ KeyTick fields key price := by
  rw [Option.eq_none_iff_forall_ne_some, Prod.forall]
  exact forall₂_congr fun key price => not_congr singleTick?_eq_some_iff

/-- The table of a single tick has its price and no other. -/
theorem get?_ofList_singleTick {key : Key} {price : Binary64}
    (h : singleTick? fields = some (key, price)) (k : Key) (p : Binary64) :
    (TextMap.ofList [(key, price)]).get? k = some p ↔ KeyTick fields k p := by
  rw [← singleTick?_eq_some_iff, h, TextMap.get?_ofList, List.reverse_singleton,
    TextMap.lookup_cons_ite, List.lookup_nil]
  simp only [Option.ite_none_right_eq_some, Option.some.injEq, Prod.mk.injEq, eq_comm]

theorem classifyObject?_eq_some_iff {shape : Shape} {u : Update} :
    classifyObject? fields = some (shape, u) ↔ Says (.object fields) shape u := by
  unfold classifyObject?
  constructor
  · intro h
    split at h
    · next code shown hscrip =>
        obtain ⟨price, htick, rfl⟩ := scripTick?_eq_some_iff.mp hscrip
        cases h
        exact .scripTick htick
    · next hscrip =>
        rw [scripTick?_eq_none_iff] at hscrip
        split at h
        · next key price hkey =>
            cases h
            exact .singleTick hscrip ⟨key, price, singleTick?_eq_some_iff.mp hkey⟩
              (get?_ofList_singleTick hkey)
        · next hkey =>
            rw [singleTick?_eq_none_iff] at hkey
            split at h
            · next data hdata =>
                cases h
                exact .batchMap hscrip hkey hdata fun _ _ => get?_batchPrices_iff
            · cases h
  · intro h
    cases h with
    | @scripTick _ code price htick =>
        rw [scripTick?_eq_some_iff.mpr ⟨price, htick, rfl⟩]
    | @singleTick _ batch hscrip hkey hbatch =>
        obtain ⟨key, price, htick⟩ := hkey
        have hsingle := singleTick?_eq_some_iff.mpr htick
        rw [scripTick?_eq_none_iff.mpr hscrip, hsingle,
          eq_of_get?_iff hbatch (get?_ofList_singleTick hsingle)]
    | @batchMap _ data batch hscrip hkey hdata hbatch =>
        rw [scripTick?_eq_none_iff.mpr hscrip, singleTick?_eq_none_iff.mpr hkey, hdata,
          eq_of_get?_iff hbatch fun _ _ => get?_batchPrices_iff]

end Objects

variable {v : Value} {shape : Shape} {u : Update}

/-- **A value is classified as what it says.** -/
theorem classify?_eq_some_iff : classify? v = some (shape, u) ↔ Says v shape u := by
  cases v with
  | object fields => exact classifyObject?_eq_some_iff
  | array items =>
      constructor
      · rintro ⟨⟩
        exact .tickArray fun _ _ => get?_arrayPrices_iff
      · intro h
        cases h with
        | tickArray hbatch =>
            rw [classify?, eq_of_get?_iff hbatch fun _ _ => get?_arrayPrices_iff]
  | number | text | null | boolean =>
      refine iff_of_false (fun h => ?_) fun h => ?_ <;> cases h

/-- A message is read as what its value says. -/
theorem read_eq_ok_iff {text : String} :
    read text = .ok (shape, u) ↔ ∃ v, Value.ofText? text = some v ∧ Says v shape u := by
  simp only [← classify?_eq_some_iff, read]
  cases Value.ofText? text with
  | none => simp
  | some v => cases hv : classify? v <;> simp [hv]

/-- A message that has no value, or whose value says nothing, is dropped. -/
theorem exists_rejection_iff {text : String} :
    (∃ rejection, read text = .error rejection) ↔
      ∀ v, Value.ofText? text = some v → ∀ shape u, ¬ Says v shape u := by
  constructor
  · rintro ⟨rejection, hread⟩ v hv shape u hsaid
    rw [read_eq_ok_iff.mpr ⟨v, hv, hsaid⟩] at hread
    cases hread
  · intro h
    cases hread : read text with
    | error rejection => exact ⟨rejection, rfl⟩
    | ok classified =>
        obtain ⟨v, hv, hsaid⟩ := read_eq_ok_iff.mp (hread : read text = .ok (_, _))
        exact absurd hsaid (h v hv _ _)

/-- Codes are named by scrip ticks alone. -/
theorem Says.exists_scripTick {code : String} {shown : Option Binary64}
    (h : Says v shape (.scrip code shown)) : ∃ fields price, v = .object fields ∧
      ScripTick fields code price ∧ price.price? = shown := by
  generalize hu : Update.scrip code shown = u at h
  cases h with
  | @scripTick fields _ price htick =>
      cases hu
      exact ⟨fields, price, rfl, htick, rfl⟩
  | singleTick | batchMap | tickArray => cases hu

/-! ## Finite prices -/

theorem LastPrice.isFinite {fields : List (String × Value)} {price : Binary64}
    (h : LastPrice fields price) : price.isFinite = true := by
  obtain ⟨-, -, -, hfinite⟩ := h
  exact hfinite

theorem EntryPrice.isFinite {price : Binary64} (h : EntryPrice v price) :
    price.isFinite = true := by
  cases h with
  | quote h => exact h.isFinite
  | plain _ hfinite => exact hfinite

/-- **No message brings a price that is not finite.** -/
theorem Says.isFinite {batch : PriceMap} (h : Says v shape (.prices batch)) {key : Key}
    {price : Binary64} (hprice : batch.get? key = some price) : price.isFinite = true := by
  cases h with
  | singleTick _ _ hbatch => exact ((hbatch key price).mp hprice).priced.isFinite
  | batchMap _ _ _ hbatch =>
      obtain ⟨-, entry, -, -, ⟨-, hentry⟩, -⟩ := (hbatch key price).mp hprice
      exact hentry.isFinite
  | tickArray hbatch =>
      obtain ⟨-, item, -, -, ⟨fields, -, htick⟩, -⟩ := (hbatch key price).mp hprice
      exact htick.priced.isFinite

end Feed

end QuoteBoard
