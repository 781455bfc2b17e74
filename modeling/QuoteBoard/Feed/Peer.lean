/-
# Peers of the stream

The peer that a session connects to may be missing, may turn the session away, or may
open the stream, send its bytes and end it.
-/

import QuoteBoard.Feed.Frame
import QuoteBoard.Network

namespace QuoteBoard.Feed

/-- Whom a session connects to. -/
inductive Peer where
  /-- Nobody listens at the address. -/
  | absent
  /-- The peer answers with a status instead of opening the stream. -/
  | refusing (status : Nat)
  /-- The peer opens the stream, sends these bytes and ends it. -/
  | sending (bytes : List UInt8)
  deriving DecidableEq, Repr

/-- What a session with a peer reports, where `error` is what is said of a failure. There is no
report on a peer that listens and is never called. -/
def Peer.reports? (error : String) (network : Network) (p : Peer) : Option (List StreamEvent) :=
  match p, network with
  | absent, _ => some (Session.run (.error error))
  | _, .isolated => none
  | refusing _, .connected => some (Session.run (.error error))
  | sending bytes, .connected => some (Session.run (.ok (arrivals error bytes)))

/-- What a session with a peer reports, whatever is said of a failure. -/
def Peer.session? (network : Network) (p : Peer) : Option (List StreamEvent) :=
  (p.reports? "" network).map fun events => events.map StreamEvent.inShort

end QuoteBoard.Feed
