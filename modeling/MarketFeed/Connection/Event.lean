import MarketFeed.Decimal.Text

/-!
What a connection and its pool report about its life, and how they say it.
-/

namespace MarketFeed

namespace Duration

/-- `nanos` in units of `10 ^ digits` nanoseconds, without trailing zeros. -/
def inUnits (nanos digits : Nat) : String :=
  let size := Nat.pow 10 digits
  let fraction := (Decimal.paddedDigits (nanos % size) digits).reverse.dropWhile (· = '0')
  String.ofList <| Nat.toDigits 10 (nanos / size) ++
    if fraction.isEmpty then [] else '.' :: fraction.reverse

/-- A duration in nanoseconds, written in the largest unit that is not above it. -/
def toText (nanos : Nat) : String :=
  if 1000000000 ≤ nanos then inUnits nanos 9 ++ "s"
  else if 1000000 ≤ nanos then inUnits nanos 6 ++ "ms"
  else if 1000 ≤ nanos then inUnits nanos 3 ++ "µs"
  else inUnits nanos 0 ++ "ns"

/-- The nanoseconds of a number of milliseconds. -/
def ofMillis (millis : Nat) : Nat := millis * 1000000

end Duration

/-- Durations are in nanoseconds. -/
inductive ConnectionEvent where
  | connecting (url : String)
  | connected (url : String)
  | resubscribed (url : String) (count : Nat)
  | heartbeatTimeout (url : String) (elapsed : Nat)
  | backoff (url : String) (attempt delay : Nat)
  | closed (url : String) (reason : String)
deriving DecidableEq, Repr

namespace ConnectionEvent

def url : ConnectionEvent → String
  | connecting url | connected url | resubscribed url _ | heartbeatTimeout url _
  | backoff url _ _ | closed url _ => url

def isClosed : ConnectionEvent → Bool
  | closed _ _ => true
  | _ => false

def message : ConnectionEvent → String
  | connecting url => "Connecting to " ++ url
  | connected url => "Connected to " ++ url
  | resubscribed url count => "Resubscribed " ++ toString count ++ " streams on " ++ url
  | heartbeatTimeout url elapsed =>
    "Heartbeat timeout on " ++ url ++ " after " ++ Duration.toText elapsed
  | backoff url attempt delay =>
    "Backing off " ++ Duration.toText delay ++ " before attempt " ++ toString attempt ++ " on " ++
      url
  | closed url reason => "Closed " ++ url ++ ": " ++ reason

end ConnectionEvent

end MarketFeed
