import MarketFeed.Json.Basic
import MarketFeed.Registry.Basic

/-!
Requests to an exchange.
-/

namespace MarketFeed

/-- A frame to send and how its answer is awaited: `messageHash` is what the answer arrives on, and
requests of one `subscriptionKey` share a subscription. -/
structure Request where
  messageHash : String
  frame : Json
  subscriptionKey : Option String
  kind : WaiterKind
  isPrivate : Bool

namespace Request

/-- A subscription: it is recorded, and answered again and again. -/
def persistent (messageHash : String) (frame : Json) : Request :=
  ⟨messageHash, frame, none, .persistent, false⟩

/-- A request that is answered once. -/
def oneShot (messageHash : String) (frame : Json) : Request :=
  ⟨messageHash, frame, none, .oneShot, false⟩

def withKey (request : Request) (key : Option String) : Request :=
  { request with subscriptionKey := key <|> request.subscriptionKey }

/-- The request of a channel that needs authentication. -/
def asPrivate (request : Request) : Request := { request with isPrivate := true }

end Request

end MarketFeed
