/-
# Lookup keys of a row

The feed addresses a price by a lookup key `segment:symbol`, to which an option adds
its expiry, strike and kind. A dashboard row carries none of these keys, only the
fields that identify its instrument, so it stands for a list of candidate keys, the
most preferred first; the price shown is that of the first candidate with a price.
-/

import QuoteBoard.Instrument.Exchange

namespace QuoteBoard

/-- The key under which a price is known. Keys are equal only if spelled alike. -/
abbrev Key := String

/-- The key `segment:symbol`. -/
def scopedKey (segment symbol : String) : Key := segment ++ ":" ++ symbol

/-- The fields of a row that identify its instrument, as the backend spells them. -/
structure Identity where
  exchange : Option String := none
  symbol : String
  strike : Option String := none
  expiry : Option String := none
  /-- Call or put. -/
  optionType : Option String := none
  deriving DecidableEq

namespace Identity

/-- The exchange code, unless absent or blank. -/
def exchangeCode? (row : Identity) : Option String := Text.present row.exchange

/-- The strike, unless absent or blank. -/
def strikeText? (row : Identity) : Option String := Text.present row.strike

/-- A row whose symbol is blank is shown, but no price can be asked for it. -/
def hasSymbol (row : Identity) : Bool := Text.trim row.symbol != ""

/-- The keys that do not depend on a strike. -/
def symbolKeys (row : Identity) : List Key :=
  let symbol := Text.trim row.symbol
  match row.exchangeCode?.bind Exchange.ofCode? with
  | some exchange =>
    scopedKey exchange.underlyingSegment symbol ::
      (exchange.derivativesSegment?.map (scopedKey · symbol)).toList
  | none => standardSegments.map (scopedKey · symbol)

/-- The key of the option contract, for a row with a strike. -/
def optionKey? (row : Identity) : Option Key :=
  row.strikeText?.map fun strike =>
    scopedKey (optionSegment row.exchangeCode?)
      (Text.trim row.symbol ++ (Text.present row.expiry).getD "" ++ strike ++
        (Text.present row.optionType).getD "")

/-- The candidate keys of a row, most preferred first; the option's own key comes last. -/
def candidates (row : Identity) : List Key := row.symbolKeys ++ row.optionKey?.toList

end Identity

end QuoteBoard
