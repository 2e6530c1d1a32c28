import MarketFeed.Connection.Dispatch
import MarketFeed.Connection.Request
import MarketFeed.Connection.Subscriptions

/-!
What a connection has to know about an exchange: how to probe it, what its frames mean and who
handles them, and how to log in.
-/

namespace MarketFeed

/-- What a frame is about. -/
inductive StreamKind where
  | orderBook
  | trades
  | ticker
  | candles
  | orders
  | ownTrades
  | balance
  | auth
  | subscription
  | custom (name : String)
deriving DecidableEq, Repr

namespace StreamKind

def name : StreamKind → String
  | orderBook => "orderbook"
  | trades => "trades"
  | ticker => "ticker"
  | candles => "ohlcv"
  | orders => "orders"
  | ownTrades => "my_trades"
  | balance => "balance"
  | auth => "auth"
  | subscription => "subscription"
  | custom name => "custom:" ++ name

/-- The kinds by name, with custom ones of the given names. -/
def table (customNames : List String) : List (String × StreamKind) :=
  ([orderBook, trades, ticker, candles, orders, ownTrades, balance, auth, subscription] ++
    customNames.map custom).map fun kind => (kind.name, kind)

end StreamKind

/-- Whom an error frame concerns. -/
inductive ErrorScope where
  | hashes (names : List String)
  /-- All private channels. -/
  | privateChannels
  /-- The connection, which is closed. -/
  | connection
deriving DecidableEq, Repr

namespace ErrorScope

def name : ErrorScope → String
  | hashes _ => "hashes"
  | privateChannels => "private"
  | connection => "connection"

/-- The hashes that a scope names. -/
def named? : ErrorScope → Option (List String)
  | hashes names => some names
  | _ => none

end ErrorScope

structure FrameError where
  scope : ErrorScope
  fault : Fault

/-- Handlers by the kind of frame that they take. -/
abbrev HandlerMap := Table StreamKind Handler

/-- The names of the kinds that have a handler. -/
def HandlerMap.kindNames (handlers : HandlerMap) : List String :=
  (handlers.keys.map StreamKind.name).mergeSort fun a b => a ≤ b

/-- How to log in: a request, and the judgement on its answer. -/
structure Login where
  request : Request
  accept : Update → Except Fault Unit

/-- An exchange without a login takes everybody as authenticated; one without a probe of its own is
probed by the protocol. -/
structure Adapter where
  pingFrame : Option Json
  isPong : Json → Bool
  classify : Json → Option FrameError
  streamKind : Json → Option StreamKind
  handlers : HandlerMap
  unsubscribeFrame : SubscriptionRecord → Option Json
  login : Option Login

/-- An exchange about which nothing is known. -/
def Adapter.plain : Adapter where
  pingFrame := none
  isPong := fun _ => false
  classify := fun _ => none
  streamKind := fun _ => none
  handlers := .empty
  unsubscribeFrame := fun _ => none
  login := none

end MarketFeed
