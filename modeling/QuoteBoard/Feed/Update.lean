/-
# Feed messages

A message of the price feed has one of four shapes:

* a scrip tick `{"scripCode": 501, "ltp": 123.45}`, addressed by the broker's code,
* a single tick `{"i": "NFO:NIFTY", "last_price": 12.3}`, addressed by a lookup key,
* a batch map `{"data": {"NFO:NIFTY": {"last_price": 12.3}}}`,
* an array of single ticks.

The first shape that fits is taken. The feed is only half trusted: an item without a
usable price is passed over, and a message of no known shape is dropped.
-/

import QuoteBoard.Price.Cache
import QuoteBoard.Feed.Scalar
import QuoteBoard.Json.Reader

namespace QuoteBoard.Feed

open QuoteBoard.Json (Value field?)

/-- The shapes of a message. -/
inductive Shape where
  | scripTick
  | singleTick
  | batchMap
  | tickArray
  deriving DecidableEq, Repr

/-- The label under which messages of a shape are counted. -/
def Shape.label : Shape → String
  | scripTick => "scrip_tick"
  | singleTick => "single_tick"
  | batchMap => "batch_map"
  | tickArray => "tick_array"

/-- What a message changes. -/
inductive Update where
  /-- The rows with this scrip code show the price, or the placeholder if it is not a number. -/
  | scrip (code : String) (price : Option Binary64)
  /-- The cache takes in these prices. -/
  | prices (batch : PriceMap)
  deriving DecidableEq

/-- Why a message is dropped. -/
inductive Rejection where
  | malformed
  | unrecognized
  deriving DecidableEq, Repr

/-- A field that is there and not null. -/
def present? (fields : List (String × Value)) (name : String) : Option Value :=
  match field? fields name with
  | some .null | none => none
  | some v => some v

/-- The code of a scrip tick: a number or a string. -/
def scripCode? : Value → Option String
  | .number n => Value.scalarText? (.number n)
  | .text s => Value.scalarText? (.text s)
  | _ => none

/-- A scrip tick: a code, and a price field that need not hold a number. -/
def scripTick? (fields : List (String × Value)) : Option (String × Option Binary64) := do
  let code ← (field? fields "scripCode").bind scripCode?
  let price ← present? fields "ltp" <|> present? fields "last_price"
  return (code, price.price?)

/-- A single tick: a key that is not empty, and a price. -/
def singleTick? (fields : List (String × Value)) : Option (Key × Binary64) :=
  match field? fields "i" with
  | some (.text key) =>
    if key = "" then none else ((present? fields "last_price").bind Value.price?).map (key, ·)
  | _ => none

/-- The price of an entry of a batch map: a quote with a price field, or the price itself. -/
def entryPrice? : Value → Option Binary64
  | .object quote => (present? quote "last_price").bind Value.price?
  | v => v.price?

/-- The prices of a batch map. -/
def batchPrices (data : List (String × Value)) : PriceMap :=
  TextMap.ofList (data.filterMap fun (key, entry) => (entryPrice? entry).map (key, ·))

/-- The prices of an array of ticks. -/
def arrayPrices (items : List Value) : PriceMap :=
  TextMap.ofList (items.filterMap fun
    | .object fields => singleTick? fields
    | _ => none)

/-- The shape of an object, with what it changes. -/
def classifyObject? (fields : List (String × Value)) : Option (Shape × Update) :=
  match scripTick? fields with
  | some (code, price) => some (.scripTick, .scrip code price)
  | none =>
    match singleTick? fields with
    | some (key, price) => some (.singleTick, .prices (TextMap.ofList [(key, price)]))
    | none =>
      match field? fields "data" with
      | some (.object data) => some (.batchMap, .prices (batchPrices data))
      | _ => none

/-- The shape of a value, with what it changes. -/
def classify? : Value → Option (Shape × Update)
  | .object fields => classifyObject? fields
  | .array items => some (.tickArray, .prices (arrayPrices items))
  | _ => none

/-- Read a message. -/
def read (text : String) : Except Rejection (Shape × Update) :=
  match Value.ofText? text with
  | none => .error .malformed
  | some v =>
    match classify? v with
    | some classified => .ok classified
    | none => .error .unrecognized

/-- How a rejection is worded; what spoils a malformed text is not told. -/
def Rejection.message? : Rejection → Option String
  | malformed => none
  | unrecognized => some "unrecognized feed payload"

end QuoteBoard.Feed
