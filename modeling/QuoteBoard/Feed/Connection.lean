/-
# The state of the feed connection

`disconnected → connecting → streaming → disconnected`. Nothing reconnects by itself:
when the stream ends, prices are kept fresh by polling until a start is asked for.
-/

namespace QuoteBoard.Feed

/-- The life of the one feed connection. -/
inductive Connection where
  | disconnected
  | connecting
  | opened
  deriving DecidableEq, Repr, Inhabited

/-- What moves the connection. -/
inductive Transition where
  /-- A start is asked for. -/
  | connect
  /-- The handshake is done. -/
  | opened
  /-- The connection failed or ended. -/
  | closed
  deriving DecidableEq, Repr

/-- What keeps the cells fresh. -/
inductive RefreshMode where
  | streaming
  | polling
  deriving DecidableEq, Repr

namespace Connection

/-- The state after a transition. A start has an effect only while disconnected. -/
def next : Connection → Transition → Connection
  | disconnected, .connect => connecting
  | state, .connect => state
  | _, .opened => opened
  | _, .closed => disconnected

/-- The stream refreshes while it is open, and polling in every other state. -/
def refreshMode : Connection → RefreshMode
  | opened => .streaming
  | disconnected | connecting => .polling

/-- The stream is open. -/
def isOpen : Connection → Bool
  | opened => true
  | disconnected | connecting => false

/-- The name of a state. -/
def name : Connection → String
  | disconnected => "disconnected"
  | connecting => "connecting"
  | opened => "open"

end Connection

/-- The name of a mode. -/
def RefreshMode.name : RefreshMode → String
  | streaming => "streaming"
  | polling => "polling"

end QuoteBoard.Feed
