/-
# The network

Peers of the service are reached over a network. In an isolated one nobody is reached:
every attempt to connect fails, and a peer that listens is never called.
-/

namespace QuoteBoard

/-- Whether connections reach a peer that listens. -/
inductive Network where
  | connected
  | isolated
  deriving DecidableEq, Repr

end QuoteBoard
