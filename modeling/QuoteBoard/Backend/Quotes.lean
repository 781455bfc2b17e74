/-
# Answers of the price service

The price service answers with a status, quotes by key and a message. Unlike the
records of the other services this answer is read strictly: a known member must have
the type it is meant to have and may occur only once, while unknown members are left
alone whatever they hold. An object may also be written as the list of its members'
values, in order and cut short anywhere.
-/

import QuoteBoard.Price.Cache
import QuoteBoard.Json.Reader
import QuoteBoard.Text.Quoted

namespace QuoteBoard.Backend

open QuoteBoard.Json (Document Spelled Numeral)

/-- Why the price service gave no prices. -/
inductive QuoteError where
  /-- No answer arrived. -/
  | unreachable
  /-- The answer has a status other than success. -/
  | status (code : Nat)
  /-- The answer reports a failure, for this reason. -/
  | rejected (reason : String)
  /-- The answer is not written as it should be. -/
  | malformed
  deriving DecidableEq, Repr

/-- How an error is worded, where the wording does not depend on how the text was spoilt or
which address was called. -/
def QuoteError.message? : QuoteError → Option String
  | unreachable | malformed => none
  | status code => some ("ltp request returned HTTP " ++ Nat.repr code)
  | rejected reason => some ("ltp request rejected: " ++ reason)

/-- The answer of the price service. -/
structure QuoteAnswer where
  status : String := ""
  /-- The last price of each key; a quote may lack one. -/
  quotes : Option (List (Key × Option Binary64)) := none
  message : Option String := none

/-- The members of an object that bear one of the known names, none of them twice; every name
must be well spelled. -/
def knownMembers? (known : List String) (seen : List String) :
    List (Spelled × Document) → Option (List (String × Document))
  | [] => some []
  | (none, _) :: _ => none
  | (some name, d) :: rest =>
    if known.contains name then
      if seen.contains name then none
      else (knownMembers? known (name :: seen) rest).map ((name, d) :: ·)
    else knownMembers? known seen rest

/-- The known members of an object, or of the list of its members' values. -/
def members? (known : List String) : Document → Option (List (String × Document))
  | .object ms => knownMembers? known [] ms
  | .array items => if items.length ≤ known.length then some (known.zip items) else none
  | _ => none

/-- A member that may be missing or null, read by `read`. -/
def optional? {α : Type} (read : Document → Option α) (ms : List (String × Document))
    (name : String) : Option (Option α) :=
  match ms.lookup name with
  | none | some .null => some none
  | some d => (read d).map some

/-- A string. -/
def readText? : Document → Option String
  | .text s => s
  | _ => none

/-- A number. -/
def readNumber? : Document → Option Binary64
  | .number n => n.value?.map Json.Number.toBinary64
  | _ => none

/-- A quote: its last price, if it has one. -/
def readQuote? (d : Document) : Option (Option Binary64) := do
  let ms ← members? ["last_price"] d
  optional? readNumber? ms "last_price"

/-- Quotes by key. -/
def readQuotes? : Document → Option (List (Key × Option Binary64))
  | .object ms => ms.mapM fun (key, d) => do return (← key, ← readQuote? d)
  | _ => none

/-- The answer that a document describes. -/
def readAnswer? (d : Document) : Option QuoteAnswer := do
  let ms ← members? ["status", "data", "message"] d
  let status ← match ms.lookup "status" with
    | none => some ""
    | some d => readText? d
  let quotes ← optional? readQuotes? ms "data"
  let message ← optional? readText? ms "message"
  return { status, quotes, message }

namespace QuoteAnswer

/-- The status of a usable answer. -/
def success : String := "success"

/-- The finite prices of a usable answer; of two quotes for a key the later counts. -/
def prices (a : QuoteAnswer) : Except QuoteError PriceMap :=
  if a.status = success then
    let latest := TextMap.ofList (a.quotes.getD [])
    .ok (TextMap.ofList (latest.entries.filterMap fun (key, price) =>
      (price.filter Binary64.isFinite).map (key, ·)))
  else .error (.rejected (a.message.getD ("status " ++ Text.shown a.status)))

end QuoteAnswer

/-- The prices that the text of an answer holds. -/
def quotedPrices (text : String) : Except QuoteError PriceMap :=
  match (Document.ofText? text).bind readAnswer? with
  | none => .error .malformed
  | some a => a.prices

end QuoteBoard.Backend
