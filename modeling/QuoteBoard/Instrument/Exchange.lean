/-
# Exchanges and market segments

The broker names an exchange by a two-letter code. Each exchange lists its
underlyings on one segment, and the two derivatives exchanges list their contracts
on a second one.
-/

import QuoteBoard.Text.Blank

namespace QuoteBoard

/-- The exchanges that the broker knows. -/
inductive Exchange where
  | nseDerivatives
  | bseDerivatives
  | nseCash
  | bseCash
  deriving DecidableEq, Repr

namespace Exchange

/-- The broker's code. -/
def code : Exchange → String
  | nseDerivatives => "NF"
  | bseDerivatives => "BF"
  | nseCash => "NC"
  | bseCash => "BC"

/-- The exchange of a code, blanks around it and the case of its letters left aside. -/
def ofCode? (code : String) : Option Exchange :=
  match (Text.trim code).toUpper with
  | "NF" => some nseDerivatives
  | "BF" => some bseDerivatives
  | "NC" => some nseCash
  | "BC" => some bseCash
  | _ => none

/-- The segment on which the underlying trades. -/
def underlyingSegment : Exchange → String
  | nseDerivatives | nseCash => "NSE"
  | bseDerivatives | bseCash => "BSE"

/-- The segment on which the derivatives trade, for an exchange that lists them. -/
def derivativesSegment? : Exchange → Option String
  | nseDerivatives => some "NFO"
  | bseDerivatives => some "BFO"
  | nseCash | bseCash => none

end Exchange

/-- The segments to try for a row of unknown exchange, in this order. -/
def standardSegments : List String := ["NSE", "BSE", "NFO", "BFO"]

/-- The exchange assumed for an option of unknown exchange. -/
def defaultOptionExchange : Exchange := .nseDerivatives

/-- The segment of option contracts: the derivatives segment of a known exchange that has one,
any other code itself in upper case, and that of the default exchange where no code is given. -/
def optionSegment (exchange : Option String) : String :=
  match Text.present exchange with
  | none => (defaultOptionExchange.derivativesSegment?).getD defaultOptionExchange.code
  | some code =>
    match (Exchange.ofCode? code).bind Exchange.derivativesSegment? with
    | some segment => segment
    | none => code.toUpper

end QuoteBoard
