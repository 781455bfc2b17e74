/-
# Sessions of the stream

A session connects to the stream once. It reports that the stream has opened, hands on
every text message unread and in order, and reports that the stream has closed, with
the reason if there is one. Whatever happens, the report that it has closed is the last
and the only one of its kind.
-/

import QuoteBoard.Text.Blank

namespace QuoteBoard.Feed

/-- What a session of the stream reports. -/
inductive StreamEvent where
  | opened
  | message (text : String)
  | closed (reason : Option String)
  deriving DecidableEq, Repr

/-- What is read from an open stream. -/
inductive Arrival where
  | text (s : String)
  | binary
  | ping
  | pong
  /-- The peer closes the stream, perhaps with a code and a reason. -/
  | close (frame : Option (Nat × String))
  /-- The stream breaks off, or the peer does not keep to the rules; `error` is what is said of
  it. -/
  | failure (error : String)
  deriving DecidableEq, Repr

namespace Session

/-- What the reason of a session says first that could not connect. -/
def connectFailed : String := "connect failed"

/-- What the reason of a session says first that broke off. -/
def brokeOff : String := "WebSocket error"

/-- The reason of a session that failed: in what way, and what is said of it. -/
def failureText (way error : String) : String := way ++ ": " ++ error

/-- The reason of a session that the peer closed. -/
def closeText : Option (Nat × String) → String
  | none => "close frame"
  | some (code, reason) => "close frame " ++ Nat.repr code ++ ": " ++ reason

/-- What a session reports once the stream has opened; what is read after the end is of no
account. -/
def reports : List Arrival → List StreamEvent
  | [] => [.closed none]
  | .text s :: rest => .message s :: reports rest
  | .close frame :: _ => [.closed (some (closeText frame))]
  | .failure error :: _ => [.closed (some (failureText brokeOff error))]
  | .binary :: rest | .ping :: rest | .pong :: rest => reports rest

/-- What a session reports, given what it reads if it can connect, and otherwise what is said of
the failure to. -/
def run : Except String (List Arrival) → List StreamEvent
  | .error error => [.closed (some (failureText connectFailed error))]
  | .ok arrivals => .opened :: reports arrivals

/-- A reason without what is said of a failure. -/
def inShort (reason : String) : String :=
  ([connectFailed, brokeOff].find? fun way => Text.startsWith (failureText way "") reason).getD
    reason

/-- What a receiver hears that leaves after so many events, and whether it hears out the end. -/
def heard (limit : Option Nat) (events : List StreamEvent) : List StreamEvent × Bool :=
  match limit with
  | some n => (events.take n, events.length < n)
  | none => (events, true)

end Session

/-- A report without what is said of a failure. -/
def StreamEvent.inShort : StreamEvent → StreamEvent
  | closed reason => closed (reason.map Session.inShort)
  | e => e

end QuoteBoard.Feed
