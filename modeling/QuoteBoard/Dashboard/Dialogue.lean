/-
# Dialogues

A part of the service that talks to others is a dialogue: it is over, or it has asked
something and goes on with the answer. Nothing in a dialogue says how or when answers
come, so the same dialogue can be followed answer by answer under any surroundings.
-/

import QuoteBoard.Backend.Record
import QuoteBoard.Engine.State

namespace QuoteBoard.Dashboard

open QuoteBoard.Backend (Contract)

/-- Why a question has no answer. -/
inductive AskError where
  /-- The backend failed, for this reason. -/
  | backend (reason : String)
  /-- The engine has stopped. -/
  | stopped
  /-- The engine stopped before it answered. -/
  | dropped
  deriving DecidableEq, Repr

/-- How an error is worded. -/
def AskError.message : AskError → String
  | backend reason => reason
  | stopped => "price supervisor stopped"
  | dropped => "price supervisor dropped the request"

/-- What is asked of the backend and of the engine. -/
inductive Ask where
  /-- The rows of a user's table. -/
  | rows (user : String) (table : Table)
  /-- The contract of an instrument, if the broker lists one. -/
  | contract (identity : Identity)
  /-- Replace the rows under a scope. -/
  | replaceRows (scope : String) (rows : List Binding)
  /-- Add a resolved contract to a row. -/
  | attach (row : RowId) (scrip : Option String) (key : Key)
  /-- Prices of several keys. -/
  | prices (keys : List Key)
  /-- The price of one key. -/
  | price (key : Key)
  /-- The rows under a scope that show no price. -/
  | unpriced (scope : String)

/-- What a question is answered with if it does not fail. -/
def Ask.Reply : Ask → Type
  | rows .. => List TradeRow
  | contract .. => Option Contract
  | replaceRows .. | attach .. => Unit
  | prices .. => PriceMap
  | price .. => Option Binary64
  | unpriced .. => List RowId

/-- A course of questions that ends with a result. -/
inductive Dialogue (α : Type) where
  | finished (result : α)
  | ask (a : Ask) (next : Except AskError a.Reply → Dialogue α)

namespace Dialogue

/-- Go on with the result of a dialogue. -/
def bind {α β : Type} (d : Dialogue α) (next : α → Dialogue β) : Dialogue β :=
  match d with
  | finished result => next result
  | ask a answered => ask a fun answer => (answered answer).bind next

instance : Monad Dialogue where
  pure := finished
  bind := bind

/-- Ask a single question. -/
def question (a : Ask) : Dialogue (Except AskError a.Reply) := ask a finished

end Dialogue

end QuoteBoard.Dashboard
