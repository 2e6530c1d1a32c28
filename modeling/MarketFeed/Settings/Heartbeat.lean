import MarketFeed.Json.Shape

/-!
How a connection finds out that its peer is gone: it sends a probe at every interval, and gives up
when nothing has come back for a number of intervals.
-/

namespace MarketFeed

/-- An interval of zero milliseconds switches the heartbeat off. With `trafficCounts` any message
is a sign of life, otherwise only an answer to a probe is one. -/
structure Heartbeat where
  interval : Nat
  timeoutMultiple : Nat
  trafficCounts : Bool
deriving DecidableEq, Repr

/-- The longest duration, in whole milliseconds: below `2 ^ 64` seconds. -/
def longestDuration : Nat := 0x10000000000000000 * 1000 - 1

namespace Heartbeat

open Json (RecordField Reader)

def standard : Heartbeat := ⟨15000, 2, true⟩

def every (interval : Nat) : Heartbeat := { standard with interval }

def disabled : Heartbeat := every 0

/-- Sets the number of intervals, which is at least one. -/
def withTimeoutMultiple (multiple : Nat) (heartbeat : Heartbeat) : Heartbeat :=
  { heartbeat with timeoutMultiple := max multiple 1 }

/-- Only answers to probes count as signs of life. -/
def pongOnly (heartbeat : Heartbeat) : Heartbeat := { heartbeat with trafficCounts := false }

def isEnabled (heartbeat : Heartbeat) : Bool := heartbeat.interval ≠ 0

/-- The time in milliseconds after which a silent connection counts as dead. -/
def window (heartbeat : Heartbeat) : Nat :=
  min (heartbeat.interval * max heartbeat.timeoutMultiple 1) longestDuration

def shape : List (RecordField Heartbeat) :=
  [.defaulted "interval" (fun _ => Reader.natural 64)
      fun heartbeat interval => { heartbeat with interval },
    .defaulted "timeout_multiple" (fun _ => Reader.natural 32)
      fun heartbeat timeoutMultiple => { heartbeat with timeoutMultiple },
    .defaulted "traffic_counts_as_alive" (fun _ => Reader.boolean)
      fun heartbeat trafficCounts => { heartbeat with trafficCounts }]

def reader : (levels : Nat) → Reader Heartbeat := Reader.record shape standard

def toJson (heartbeat : Heartbeat) : Json :=
  .ofMembers
    [("interval", .ofNat heartbeat.interval),
      ("timeout_multiple", .ofNat heartbeat.timeoutMultiple),
      ("traffic_counts_as_alive", .bool heartbeat.trafficCounts)]

end Heartbeat

end MarketFeed
