/-
# Tables of the dashboard

A user's dashboard has two tables of rows, trade requests and executed trades. The
rows of a table share the start of their names, `user/table/`. A row with an id of its
own is named by it, and a row without one by its place in the table.
-/

import QuoteBoard.Text.Distinct
import QuoteBoard.Board.Basic

namespace QuoteBoard.Dashboard

/-- The tables of a user. -/
inductive Table where
  | requests
  | executed
  deriving DecidableEq, Repr

namespace Table

/-- The tables in the order in which they are loaded. -/
def all : List Table := [requests, executed]

/-- The name of a table. -/
def name : Table → String
  | requests => "requests"
  | executed => "executed"

/-- The table of a name. -/
def ofName? : String → Option Table
  | "requests" => some requests
  | "executed" => some executed
  | _ => none

end Table

/-- A row as the backend delivers it. -/
structure TradeRow where
  id : Option String
  identity : Identity
  scrip : Option String
  deriving DecidableEq

/-- The start that the names of a table's rows share. -/
def tableScope (user : String) (table : Table) : String := user ++ "/" ++ table.name ++ "/"

/-- The rows without those whose id occurred before; rows without an id are all kept. -/
def dedupe (rows : List TradeRow) : List TradeRow := firstOccurrences TradeRow.id rows

/-- The name of a row by its id, or by its place where it has none. -/
def rowName (scope : String) (place : Nat) (row : TradeRow) : RowId :=
  match row.id with
  | some id => scope ++ id
  | none => scope ++ "#" ++ Nat.repr place

/-- The keys that a row is priced by; a row without a symbol has none. -/
def rowCandidates (row : TradeRow) : List Key :=
  if row.identity.hasSymbol then row.identity.candidates else []

/-- A row of a table, named and bound, with the identity to resolve it by. -/
structure NamedRow where
  binding : Binding
  identity : Identity

/-- Name and bind the rows of a table. -/
def nameRows (scope : String) (rows : List TradeRow) : List NamedRow :=
  rows.zipIdx.map fun (row, place) =>
    { binding := ⟨rowName scope place row, rowCandidates row, row.scrip⟩
      identity := row.identity }

/-- The identity of a row by its name; of two rows of one name the later counts. -/
def identityOf? (rows : List NamedRow) (id : RowId) : Option Identity :=
  (rows.reverse.find? fun r => r.binding.id = id).map NamedRow.identity

end QuoteBoard.Dashboard
