import MarketFeed.Settings.Backoff
import MarketFeed.Settings.Heartbeat

/-!
Settings of connections and of the pool that replaces them.
-/

namespace MarketFeed

open Json (RecordField Reader)

/-- What happens when a dead connection is replaced: whether its subscriptions are carried over,
and how long the replacement waits after failures. -/
structure Reconnect where
  resubscribe : Bool
  backoff : Backoff

namespace Reconnect

def standard : Reconnect := ⟨true, .standard⟩

def shape : List (RecordField Reconnect) :=
  [.defaulted "resubscribe" (fun _ => Reader.boolean)
      fun reconnect resubscribe => { reconnect with resubscribe },
    .defaulted "backoff" Backoff.reader fun reconnect backoff => { reconnect with backoff }]

def reader : (levels : Nat) → Reader Reconnect := Reader.record shape standard

def toJson (reconnect : Reconnect) : Json :=
  .ofMembers
    [("resubscribe", .bool reconnect.resubscribe), ("backoff", reconnect.backoff.toJson)]

end Reconnect

/-- Settings of one connection; times are in milliseconds. -/
structure ConnectionSettings where
  connectTimeout : Nat
  shutdownTimeout : Nat
  maxSubscriptions : Nat
  heartbeat : Heartbeat
  reconnect : Reconnect

namespace ConnectionSettings

def standard : ConnectionSettings := ⟨10000, 5000, 200, .standard, .standard⟩

def shape : List (RecordField ConnectionSettings) :=
  [.defaulted "connect_timeout" (fun _ => Reader.natural 64)
      fun settings connectTimeout => { settings with connectTimeout },
    .defaulted "shutdown_timeout" (fun _ => Reader.natural 64)
      fun settings shutdownTimeout => { settings with shutdownTimeout },
    .defaulted "max_subscriptions" (fun _ => Reader.natural 64)
      fun settings maxSubscriptions => { settings with maxSubscriptions },
    .defaulted "heartbeat" Heartbeat.reader fun settings heartbeat => { settings with heartbeat },
    .defaulted "reconnect" Reconnect.reader fun settings reconnect => { settings with reconnect }]

def reader : (levels : Nat) → Reader ConnectionSettings := Reader.record shape standard

def toJson (settings : ConnectionSettings) : Json :=
  .ofMembers
    [("connect_timeout", .ofNat settings.connectTimeout),
      ("shutdown_timeout", .ofNat settings.shutdownTimeout),
      ("max_subscriptions", .ofNat settings.maxSubscriptions),
      ("heartbeat", settings.heartbeat.toJson),
      ("reconnect", settings.reconnect.toJson)]

end ConnectionSettings

end MarketFeed
