import MarketFeed.Fault.Socket

/-!
What a client meets when it dials.
-/

namespace MarketFeed

/-- How an endpoint answers those who dial it. -/
inductive EndpointMode where
  | accepts
  | refuses
  /-- The endpoint says nothing. -/
  | hangs
  /-- The endpoint answers the handshake with a key that does not match. -/
  | mismatches
  | status (code : Nat)
deriving DecidableEq, Repr

/-- Whether endpoints can be reached. -/
inductive Network where
  | reachable
  | unreachable
deriving DecidableEq, Repr

/-- What comes of dialing. -/
inductive Answer where
  | accepted
  | failed (fault : Fault)
  | silence

namespace Network

def refusal : SocketFault := .io "Connection refused (os error 111)"

def noRoute : SocketFault := .io "Network is unreachable (os error 101)"

/-- Dials an endpoint; nothing listens where there is none. -/
def dial (network : Network) (endpoint : Option EndpointMode) : Answer :=
  match network, endpoint with
  | .unreachable, _ => .failed noRoute.toFault
  | .reachable, none | .reachable, some .refuses => .failed refusal.toFault
  | .reachable, some .accepts => .accepted
  | .reachable, some .hangs => .silence
  | .reachable, some .mismatches => .failed SocketFault.keyMismatch.toFault
  | .reachable, some (.status code) => .failed (SocketFault.http code).toFault

end Network

end MarketFeed
