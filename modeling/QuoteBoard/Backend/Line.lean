/-
# The line to the backend

The far end of the line answers by a script: what it does with the requests to come,
one after the other, and once the script has run out it is out of service. In an
isolated network no request arrives there. Calls made on one line use up one script.
-/

import QuoteBoard.Backend.Lookup
import QuoteBoard.Backend.Quotes
import QuoteBoard.Fallback.Fetch
import QuoteBoard.Network

namespace QuoteBoard.Backend

open QuoteBoard.Dashboard (Table TradeRow)

/-- The far end of the line. -/
structure Line where
  network : Network
  /-- A server listens. -/
  listening : Bool
  /-- What it does with the requests to come. -/
  script : List Outcome

namespace Line

/-- Requests arrive at the far end. -/
def isUp (l : Line) : Bool := l.network = .connected && l.listening

/-- What the server does once the script has run out. -/
def outOfService : Outcome := .answered 503 ""

/-- The outcomes of the requests to come. -/
def outcomes (l : Line) : Outcomes := fun n =>
  if l.isUp then (l.script[n]?).getD outOfService else .lost

/-- The line after some requests. -/
def after (l : Line) (count : Nat) : Line := { l with script := l.script.drop count }

end Line

/-- A call to the backend. -/
inductive Call where
  | prices (keys : List Key)
  /-- Prices in batches of a size. -/
  | batchedPrices (keys : List Key) (size : Nat)
  | rows (user : String) (table : Table)
  | contract (identity : Identity)

/-- What a call results in if it does not fail. -/
inductive CallResult where
  | prices (found : PriceMap)
  | rows (rows : List TradeRow)
  | contract (found : Option Contract)

/-- Why a call failed. -/
inductive CallError where
  | quotes (e : QuoteError)
  | lookup (e : LookupError)

/-- The prices that an outcome tells of. -/
def pricesOf : Outcome → Except QuoteError PriceMap
  | .lost _ => .error .unreachable
  | .answered code body => if isSuccess code then quotedPrices body else .error (.status code)

/-- What a call leaves: the requests that were sent for it, and its result. -/
structure CallReport where
  requests : List Request
  result : Except CallError CallResult

namespace Call

/-- The path that a call asks for. -/
def path : Call → String
  | .prices _ | .batchedPrices _ _ => Request.pricesPath
  | .rows _ table => Request.rowsPath table
  | .contract _ => Request.contractPath

/-- Make a call whose requests can be sent, given the outcomes of the requests to come. -/
def send (c : Client) (outcomes : Outcomes) : Call → CallReport
  | .prices keys =>
    ⟨[.prices keys], ((pricesOf (outcomes 0)).map .prices).mapError .quotes⟩
  | .batchedPrices keys size =>
    let report := Fallback.fetch size (fun n _ => (pricesOf (outcomes n)).toOption) keys
    ⟨report.requests.map .prices, .ok (.prices report.prices)⟩
  | .rows user table =>
    let sent := lookUpRows c table outcomes
    ⟨List.replicate sent.count (.rows user table), (sent.result.map .rows).mapError .lookup⟩
  | .contract identity =>
    ⟨[.contract identity], ((contractOf (outcomes 0)).map .contract).mapError .lookup⟩

/-- What a call results in whose requests cannot be sent for want of an address. -/
def unsent : Call → Except CallError CallResult
  | .prices _ => .error (.quotes .unreachable)
  | .batchedPrices _ _ => .ok (.prices TextMap.empty)
  | .rows _ _ => .error (.lookup .noAddress)
  | .contract _ => .error (.lookup .contractsLost)

/-- Make a call, given the outcomes of the requests to come. -/
def run (c : Client) (outcomes : Outcomes) (call : Call) : CallReport :=
  if (c.address? call.path).isSome then call.send c outcomes else ⟨[], call.unsent⟩

end Call

/-- Make calls one after the other on one line. Requests that do not arrive are not reported. -/
def Line.run (c : Client) (l : Line) : List Call → List CallReport
  | [] => []
  | call :: rest =>
    let report := call.run c l.outcomes
    { report with requests := if l.isUp then report.requests else [] } ::
      (l.after report.requests.length).run c rest

end QuoteBoard.Backend
