/-
# Loading dashboards

To load a table is to fetch its rows, bind them, ask for the prices of all their keys,
and then to resolve the rows that are still without a price through the broker's list
of contracts. A failure to load a table leaves the other tables alone, and a failure to
resolve a row leaves the other rows alone.
-/

import QuoteBoard.Dashboard.Dialogue

namespace QuoteBoard.Dashboard

open QuoteBoard.Backend (Contract)

/-- What loading has achieved. -/
structure Summary where
  /-- Rows bound. -/
  rows : Nat
  /-- Rows without a price after the first fill. -/
  unpriced : Nat
  /-- Rows for which the broker listed a contract. -/
  resolved : Nat
  deriving DecidableEq, Repr

namespace Summary

/-- Nothing loaded. -/
def none : Summary := ⟨0, 0, 0⟩

/-- What two loads have achieved together. -/
def add (a b : Summary) : Summary :=
  ⟨a.rows + b.rows, a.unpriced + b.unpriced, a.resolved + b.resolved⟩

end Summary

/-- The key of a resolved contract. -/
def contractKey (identity : Identity) (contract : Contract) : Key :=
  scopedKey (optionSegment identity.exchangeCode?) contract.tradingSymbol

/-- Resolve a row: look its instrument up, add what was found to the row, and price the new key.
The result is whether all of it succeeded. -/
def resolveRow (row : RowId) (identity : Identity) : Dialogue Bool :=
  .ask (.contract identity) fun
    | .ok (some contract) =>
      let key := contractKey identity contract
      .ask (.attach row contract.scrip key) fun
        | .ok _ => .ask (.price key) fun
          | .ok _ => .finished true
          | .error _ => .finished false
        | .error _ => .finished false
    | _ => .finished false

/-- Resolve rows one after the other and count those that succeed. Rows of another load and rows
without a symbol are passed over. -/
def resolveRows (table : List NamedRow) : List RowId → Dialogue Nat
  | [] => .finished 0
  | row :: rest =>
    match (identityOf? table row).filter Identity.hasSymbol with
    | none => resolveRows table rest
    | some identity => do
      let resolved ← resolveRow row identity
      let others ← resolveRows table rest
      return (if resolved then 1 else 0) + others

/-- Every key that a row of a table looks up, in ascending order. -/
def tableKeys (table : List NamedRow) : List Key :=
  ascending (table.flatMap fun r => r.binding.candidates)

/-- Ask for the prices of keys, unless there are none. -/
def fill (keys : List Key) : Dialogue (Except AskError Unit) :=
  if keys = [] then .finished (.ok ())
  else .ask (.prices keys) fun answer => .finished (answer.map fun _ => ())

/-- Resolve what is still without a price. -/
def resolveUnpriced (scope : String) (table : List NamedRow) : Dialogue (Except AskError Summary) :=
  .ask (.unpriced scope) fun
    | .error e => .finished (.error e)
    | .ok unpriced => do
      let resolved ← resolveRows table unpriced
      return .ok ⟨table.length, unpriced.length, resolved⟩

/-- Load a table: bind its rows, fill in prices, resolve the rest. -/
def loadTable (user : String) (table : Table) : Dialogue (Except AskError Summary) :=
  .ask (.rows user table) fun
    | .error e => .finished (.error e)
    | .ok rows =>
      let scope := tableScope user table
      let named := nameRows scope (dedupe rows)
      .ask (.replaceRows scope (named.map NamedRow.binding)) fun
        | .error e => .finished (.error e)
        | .ok _ => do
          match ← fill (tableKeys named) with
          | .error e => return .error e
          | .ok _ => resolveUnpriced scope named

/-- Load tables of a user one after the other; a table that fails adds nothing. -/
def loadTables (user : String) : List Table → Dialogue Summary
  | [] => .finished .none
  | table :: rest => do
    let loaded ← loadTable user table
    let others ← loadTables user rest
    return (loaded.toOption.getD .none).add others

/-- Load both tables of a user. -/
def loadUser (user : String) : Dialogue Summary := loadTables user Table.all

/-- Load the tables of users one after the other. -/
def loadUsers : List String → Dialogue Unit
  | [] => .finished ()
  | user :: rest => do
    let _ ← loadUser user
    loadUsers rest

end QuoteBoard.Dashboard
