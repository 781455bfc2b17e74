/-
# Records of the backend

The backend is loosely typed: one field goes by several names, and numbers arrive as
numbers or as strings. A record is read by trying the names of a field in turn and
taking the first that holds a scalar.
-/

import QuoteBoard.Feed.Scalar
import QuoteBoard.Dashboard.Table

namespace QuoteBoard.Backend

open QuoteBoard.Json (Value field?)
open QuoteBoard.Dashboard (TradeRow)

/-- The first of several fields that holds a scalar, as text. -/
def firstText? (fields : List (String × Value)) (names : List String) : Option String :=
  names.findSome? fun name => (field? fields name).bind Value.scalarText?

/-- The names of a row's id, of its symbol, its strike and its scrip code, best first. -/
def idNames : List String := ["id", "requestId", "request_id"]

@[inherit_doc idNames]
def symbolNames : List String := ["instrument", "symbol", "tradingSymbol"]

@[inherit_doc idNames]
def strikeNames : List String := ["strikePrice", "strike"]

@[inherit_doc idNames]
def scripNames : List String :=
  ["scripCode", "scrip_code", "scripCodeStr", "scrip", "tradingScripCode"]

/-- The exchange of a record; the word `null` in any case of its letters means unknown. -/
def exchange? (fields : List (String × Value)) : Option String :=
  (firstText? fields ["exchange"]).filter fun e => !Text.eqIgnoringCase e "null"

/-- The row that a record describes. -/
def tradeRow (fields : List (String × Value)) : TradeRow :=
  { id := firstText? fields idNames
    identity :=
      { exchange := exchange? fields
        symbol := (firstText? fields symbolNames).getD ""
        strike := firstText? fields strikeNames
        expiry := firstText? fields ["expiry"]
        optionType := firstText? fields ["optionType"] }
    scrip := firstText? fields scripNames }

/-- The rows of an array of records; what is no record is passed over. -/
def tradeRows : Value → List TradeRow
  | .array items => items.filterMap fun
    | .object fields => some (tradeRow fields)
    | _ => none
  | _ => []

/-- An instrument as the broker lists it. -/
structure Contract where
  /-- The broker's exact symbol. -/
  tradingSymbol : String
  scrip : Option String
  deriving DecidableEq

/-- The contract that a record describes, if it names a trading symbol. -/
def contract? : Value → Option Contract
  | .object fields => do
    let tradingSymbol ← firstText? fields ["tradingSymbol"]
    return { tradingSymbol, scrip := firstText? fields ["scripCode", "scrip_code"] }
  | _ => none

end QuoteBoard.Backend
