/-
# Look-ups

The rows of a table and the contract of an instrument are looked up. A look-up of rows
is sent again after a failure that may pass: a lost request, a server that is asked
too often, or one that has failed. Before it is sent again some time goes by, twice as
much each time as long as thirty-two bits can tell. A look-up of a contract is sent
once, and an answer other than success means that the broker lists no such contract.
-/

import QuoteBoard.Backend.Outcome
import QuoteBoard.Backend.Record
import QuoteBoard.Backend.Request
import QuoteBoard.Json.Reader

namespace QuoteBoard.Backend

open QuoteBoard.Dashboard (Table TradeRow)

/-- Why a look-up failed. -/
inductive LookupError where
  /-- No answer arrived. -/
  | lost (error : String)
  /-- The server is asked too often. -/
  | rateLimited
  /-- The server has failed. -/
  | serverError (code : Nat)
  /-- The request is refused for good. -/
  | refused (code : Nat) (path body : String)
  /-- The answer to a request for `path` is no document. -/
  | malformed (path : String)
  /-- What the request should be sent to is no address. -/
  | noAddress
  /-- No answer came from the list of contracts. -/
  | contractsLost
  /-- The answer of the list of contracts is no document. -/
  | contractsMalformed
  deriving DecidableEq, Repr

/-- How an error is worded, where the wording does not tell an address. -/
def LookupError.message? : LookupError → Option String
  | lost _ => none
  | rateLimited => some "Rate limited"
  | serverError code => some ("Server error: " ++ statusText code)
  | refused code path body =>
    some ("Backend error " ++ statusText code ++ " on " ++ path ++ ": " ++ body)
  | malformed path => some ("Invalid JSON from " ++ path)
  | noAddress => some "Failed to clone request"
  | contractsLost => some "Script master request failed"
  | contractsMalformed => some "Invalid script master JSON"

/-- What an outcome means to a look-up. -/
inductive Verdict where
  | found (body : String)
  /-- The failure may pass. -/
  | passing (e : LookupError)
  | final (e : LookupError)
  deriving DecidableEq, Repr

/-- What the outcome of a request for `path` means. -/
def judge (path : String) : Outcome → Verdict
  | .lost error => .passing (.lost error)
  | .answered code body =>
    if isSuccess code then .found body
    else if code = tooManyRequests then .passing .rateLimited
    else if isServerError code then .passing (.serverError code)
    else .final (.refused code path body)

/-- How many times the base delay goes by before an attempt, the first of which has number zero.
The factor is told in thirty-two bits: it is a power of two up to attempt number 32, and zero from
then on. -/
def delayFactor (attempt : Nat) : Nat := Nat.pow 2 (attempt - 1) % UInt32.size

/-- The milliseconds that go by before an attempt. -/
def delayMs (base attempt : Nat) : Nat := base * delayFactor attempt

/-- The result of a request that is sent again after passing failures, with the milliseconds that
went by before each time that it was sent again. -/
structure Sent (α : Type) where
  result : α
  waits : List Nat

/-- How many times a request was sent. -/
def Sent.count {α : Type} (s : Sent α) : Nat := s.waits.length + 1

/-- Send a request for `path` until its outcome is not a passing failure, at most `left` more
times after attempt number `attempt`. -/
def attemptsFrom (base : Nat) (path : String) (outcomes : Outcomes) (attempt left : Nat) :
    Sent (Except LookupError String) :=
  match judge path (outcomes attempt) with
  | .found body => ⟨.ok body, []⟩
  | .final e => ⟨.error e, []⟩
  | .passing e =>
    match left with
    | 0 => ⟨.error e, []⟩
    | left + 1 =>
      let later := attemptsFrom base path outcomes (attempt + 1) left
      ⟨later.result, delayMs base (attempt + 1) :: later.waits⟩

/-- Send a request for `path`, again after passing failures. -/
def attempts (c : Client) (path : String) (outcomes : Outcomes) :
    Sent (Except LookupError String) :=
  attemptsFrom c.retryBaseDelayMs path outcomes 0 c.maxRetries

/-- The value that the body of an answer stands for. -/
def decoded (e : LookupError) (body : String) : Except LookupError Json.Value :=
  match Json.Value.ofText? body with
  | some v => .ok v
  | none => .error e

/-- Look up the rows of a table. -/
def lookUpRows (c : Client) (table : Table) (outcomes : Outcomes) :
    Sent (Except LookupError (List TradeRow)) :=
  let path := Request.rowsPath table
  let sent := attempts c path outcomes
  ⟨sent.result.bind fun body => (decoded (.malformed path) body).map tradeRows, sent.waits⟩

/-- The contract that the outcome of a look-up tells of. -/
def contractOf : Outcome → Except LookupError (Option Contract)
  | .lost _ => .error .contractsLost
  | .answered code body =>
    if isSuccess code then (decoded .contractsMalformed body).map contract? else .ok none

end QuoteBoard.Backend
