import MarketFeed.Registry.Basic

/-!
Waiters in the hands of their callers. A caller asks for one delivery and either insists on it or
gives up, or it turns the waiter into a stream.
-/

namespace MarketFeed

inductive Handle where
  | idle (waiter : Waiter)
  /-- A request for a delivery is under way. -/
  | waiting (waiter : Waiter)
  | streaming (waiter : Waiter)
  | gone
deriving DecidableEq, Repr

/-- The answer to a caller. -/
inductive Reply (ν : Type) where
  | delivery (delivery : Delivery ν)
  | pending
  /-- The stream is over. -/
  | ended
  | streaming
  | dropped
  /-- The waiter is in another use, or gone. -/
  | unusable

namespace Handle

variable {ν : Type}

/-- Looks once for a delivery and gives up if there is none. A one-shot waiter that gives up has
lost its ticket. -/
def receive (registry : Registry ν) : Handle → Reply ν × Handle × Registry ν
  | idle waiter =>
    match registry.take waiter with
    | (.delivery delivery, waiter) => (.delivery delivery, idle waiter, registry)
    | (.over, waiter) =>
      (.delivery (.error (Registry.noLongerRegistered waiter)), idle waiter, registry)
    | (.nothingYet, waiter) =>
      let (waiter, registry) := registry.abandonTicket waiter
      (.pending, idle waiter, registry)
  | handle => (.unusable, handle, registry)

/-- Looks for a delivery and keeps asking until there is one. -/
def await (registry : Registry ν) : Handle → Reply ν × Handle
  | idle waiter | waiting waiter =>
    match registry.take waiter with
    | (.delivery delivery, waiter) => (.delivery delivery, idle waiter)
    | (.over, waiter) => (.delivery (.error (Registry.noLongerRegistered waiter)), idle waiter)
    | (.nothingYet, waiter) => (.pending, waiting waiter)
  | handle => (.unusable, handle)

def stream : Handle → Reply ν × Handle
  | idle waiter => (.streaming, streaming waiter)
  | handle => (.unusable, handle)

/-- The next item of a stream; a stream that is over is gone. -/
def next (registry : Registry ν) : Handle → Reply ν × Handle × Registry ν
  | streaming waiter =>
    match registry.take waiter with
    | (.delivery delivery, waiter) => (.delivery delivery, streaming waiter, registry)
    | (.over, waiter) => (.ended, gone, registry.discard waiter)
    | (.nothingYet, waiter) => (.pending, streaming waiter, registry)
  | handle => (.unusable, handle, registry)

def drop (registry : Registry ν) : Handle → Reply ν × Handle × Registry ν
  | idle waiter | waiting waiter | streaming waiter => (.dropped, gone, registry.discard waiter)
  | gone => (.dropped, gone, registry)

end Handle

end MarketFeed
