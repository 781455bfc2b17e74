/-
# Requests to the backend

Three services are asked: the price service for the prices of keys, the order service
for the rows of a table, and the list of contracts for the contract of an instrument.
A request names a path below the backend's address and pairs of names and values. It can
be sent if the address and the path together spell an address.
-/

import QuoteBoard.Backend.Address
import QuoteBoard.Dashboard.Table
import QuoteBoard.Settings.Basic

namespace QuoteBoard.Backend

open QuoteBoard.Dashboard (Table)

/-- A request. -/
structure Request where
  path : String
  pairs : List (String × String)
  deriving DecidableEq, Repr

namespace Request

/-- The path of the price service. -/
def pricesPath : String := "/api/mstock/ltp"

/-- The path of the list of contracts. -/
def contractPath : String := "/api/scripts/option"

/-- The path of a table. -/
def rowsPath : Table → String
  | .requests => "/api/orders/requests"
  | .executed => "/api/orders/executed"

/-- One pair for each key. -/
def pricesPairs (keys : List Key) : List (String × String) := keys.map ("i", ·)

/-- One pair for each field of an instrument that is neither absent nor blank. -/
def contractPairs (identity : Identity) : List (String × String) :=
  [ ("exchange", identity.exchange), ("instrument", some identity.symbol),
    ("strikePrice", identity.strike), ("optionType", identity.optionType),
    ("expiry", identity.expiry) ].filterMap fun (name, value) =>
      (Text.present value).map (name, ·)

/-- A request for the prices of keys. -/
def prices (keys : List Key) : Request := ⟨pricesPath, pricesPairs keys⟩

/-- A request for the contract of an instrument. -/
def contract (identity : Identity) : Request := ⟨contractPath, contractPairs identity⟩

/-- A request for the rows of a user's table. -/
def rows (user : String) (table : Table) : Request := ⟨rowsPath table, [("userId", user)]⟩

end Request

/-- How the backend is called. -/
structure Client where
  baseUrl : String := "http://localhost:8080"
  timeoutMs : Nat := 10000
  maxConcurrent : Nat := 4
  maxRetries : Nat := 2
  retryBaseDelayMs : Nat := 200
  deriving DecidableEq, Repr

namespace Client

/-- The client for the backend of the settings; slashes at the end of the address are left out. -/
def ofSettings (b : BackendSettings) : Client :=
  { baseUrl := Settings.withoutEndSlashes b.baseUrl
    timeoutMs := b.timeoutMs
    maxConcurrent := b.maxConcurrent
    maxRetries := b.maxRetries
    retryBaseDelayMs := b.retryBaseDelayMs }

/-- The text of the address of a path. -/
def url (c : Client) (path : String) : String := c.baseUrl ++ path

/-- The address of a path, if its text spells one. -/
def address? (c : Client) (path : String) : Option Address := Address.ofText? (c.url path)

end Client

/-- What a request that a client sends asks of its host. -/
def Request.target? (r : Request) (c : Client) : Option String :=
  (c.address? r.path).map fun a => a.target r.pairs

end QuoteBoard.Backend
