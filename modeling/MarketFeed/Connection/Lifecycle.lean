/-!
The life of a connection and what is counted during it. A connection is never opened again once it
has begun to close.
-/

namespace MarketFeed

inductive Lifecycle where
  | connecting
  | opened
  | closing
  | closed
deriving DecidableEq, Repr

namespace Lifecycle

def name : Lifecycle → String
  | connecting => "connecting"
  | opened => "open"
  | closing => "closing"
  | closed => "closed"

def code : Lifecycle → Nat
  | connecting => 0
  | opened => 1
  | closing => 2
  | closed => 3

/-- The state of a code; any code beyond the last one stands for a closed connection. -/
def ofCode : Nat → Lifecycle
  | 0 => connecting
  | 1 => opened
  | 2 => closing
  | _ => closed

def isLive : Lifecycle → Bool
  | connecting | opened => true
  | closing | closed => false

end Lifecycle

/-- Counts and times of a connection. Counters start over at `2 ^ 64`; times are in milliseconds,
and zero stands for never. -/
structure Stats where
  messagesReceived : UInt64
  messagesSent : UInt64
  bytesReceived : UInt64
  bytesSent : UInt64
  parseFailures : UInt64
  lastMessage : Int
  lastPing : Int
  lastPong : Int
  connectedAt : Int
deriving DecidableEq, Repr

namespace Stats

def zero : Stats := ⟨0, 0, 0, 0, 0, 0, 0, 0, 0⟩

def recordReceived (stats : Stats) (bytes : UInt64) (now : Int) : Stats :=
  { stats with
    messagesReceived := stats.messagesReceived + 1
    bytesReceived := stats.bytesReceived + bytes
    lastMessage := now }

def recordSent (stats : Stats) (bytes : UInt64) : Stats :=
  { stats with
    messagesSent := stats.messagesSent + 1
    bytesSent := stats.bytesSent + bytes }

def recordParseFailure (stats : Stats) : Stats :=
  { stats with parseFailures := stats.parseFailures + 1 }

def recordPing (stats : Stats) (now : Int) : Stats := { stats with lastPing := now }

def recordPong (stats : Stats) (now : Int) : Stats := { stats with lastPong := now }

/-- The socket is open; signs of life are counted from here. -/
def recordConnected (stats : Stats) (now : Int) : Stats :=
  { stats with connectedAt := now, lastPong := now, lastMessage := now }

/-- The time between the last probe and an answer that followed it. -/
def latency? (stats : Stats) : Option Int :=
  if 0 < stats.lastPing ∧ stats.lastPing ≤ stats.lastPong then
    some (stats.lastPong - stats.lastPing)
  else none

end Stats

end MarketFeed
