import MarketFeed.Book.Store
import MarketFeed.Connection.Basic
import MarketFeed.Feed.Update

/-!
What is shown of records, books and connections: short rows where a record is one of many, and
objects of the members that matter elsewhere.
-/

namespace MarketFeed

namespace Json

def ofTexts (texts : List String) : Json := arr (texts.map str)

def ofDecimal (a : Decimal) : Json := str a.toText

def ofRows {α : Type} (row : α → Json) (records : List α) : Json := arr (records.map row)

end Json

def Trade.row (trade : Trade) : Json :=
  .arr [.ofOption .str trade.id, .str trade.symbol, .int trade.timestamp, .ofDecimal trade.price,
    .ofDecimal trade.amount]

def Order.row (order : Order) : Json :=
  .arr [.str order.id, .ofOption .str order.clientId, .str order.symbol,
    .ofOption .int order.timestamp, .ofDecimal order.filled, .ofOption .ofDecimal order.remaining,
    .ofOption .ofDecimal order.average, .str order.status.name, .ofNat order.trades.length]

def Candle.row (candle : Candle) : Json :=
  .arr [.int candle.timestamp, .ofDecimal candle.opening, .ofDecimal candle.high,
    .ofDecimal candle.low, .ofDecimal candle.closing, .ofDecimal candle.volume]

def Level.row (level : Level) : Json := .arr [.ofDecimal level.price, .ofDecimal level.amount]

def BookSnapshot.view (snapshot : BookSnapshot) : Json :=
  .ofMembers
    [("symbol", .str snapshot.symbol), ("bids", .ofRows Level.row snapshot.bids),
      ("asks", .ofRows Level.row snapshot.asks), ("nonce", .ofOption .ofNat snapshot.nonce),
      ("timestamp", .ofOption .int snapshot.timestamp)]

/-- The name of the kind of an update, and its contents. -/
def Update.contents : Update → String × Json
  | book snapshot => ("orderbook", snapshot.view)
  | trades records => ("trades", .ofRows Trade.row records)
  | ownTrades records => ("my_trades", .ofRows Trade.row records)
  | orders records => ("orders", .ofRows Order.row records)
  | candles records => ("ohlcv", .ofRows Candle.row records)
  | message contents => ("message", contents)

def Update.view (update : Update) : Json :=
  .ofMembers [("type", .str update.contents.1), ("value", update.contents.2)]

def Fault.kindName : Fault → String
  | transport _ => "Transport"
  | timeout _ => "Timeout"
  | connectionClosed _ => "ConnectionClosed"
  | authentication _ => "Authentication"
  | exchange _ => "Exchange"
  | outOfSync _ => "OutOfSync"
  | unreadable _ => "Parse"
  | invalidRequest _ => "InvalidRequest"
  | exhausted _ => "ResourceExhausted"
  | cancelled _ => "Cancelled"
  | context _ _ => "Context"

def Json.Fault.categoryName : Json.Fault → String
  | malformed => "syntax"
  | mistyped => "data"
  | truncated => "eof"

/-- The kind of a fault and its message; of a document that cannot be read, the category. -/
def Fault.view (fault : Fault) : Json :=
  .ofMembers
    [("error", .str fault.kindName),
      match fault with
      | unreadable (.document cause) => ("category", .str cause.categoryName)
      | _ => ("message", .str fault.message)]

/-- A result, or the fault in its place. -/
def Fault.viewOr {α : Type} (view : α → Json) : Except Fault α → Json
  | .ok a => view a
  | .error fault => fault.view

def OrderBook.view (book : OrderBook) : Json :=
  .ofMembers
    [("nonce", .ofOption .ofNat book.nonce), ("timestamp", .ofOption .int book.timestamp),
      ("synced", .bool book.isSynced), ("needs_resync", .bool book.needsResync),
      ("buffered", .ofNat book.buffered.length), ("bids", .ofRows Level.row book.bids.bestFirst),
      ("asks", .ofRows Level.row book.asks.bestFirst)]

/-- A book with what can be computed from it. -/
def OrderBook.fullView (book : OrderBook) (depth : Option Nat) : Except Decimal.Overflow Json := do
  let spread ← book.spread
  let mid ← book.midPrice
  let bidVolume ← book.bids.volume
  let askVolume ← book.asks.volume
  let best := Json.ofOption fun level => Json.ofRows Level.row [level]
  return .ofMembers
    [("symbol", .str book.symbol), ("policy", .str book.policy.name),
      ("book", (book.materialize depth).toJson), ("best_bid", best book.bestBid?),
      ("best_ask", best book.bestAsk?), ("spread", .ofOption .ofDecimal spread),
      ("mid", .ofOption .ofDecimal mid),
      ("volumes", .arr [.ofDecimal bidVolume, .ofDecimal askVolume])]

def SubscriptionRecord.view (record : SubscriptionRecord) : Json :=
  .ofMembers
    [("message_hash", .str record.messageHash), ("hashes", .ofTexts record.hashes),
      ("request", record.request), ("subscription_key", .ofOption .str record.subscriptionKey),
      ("private", .bool record.isPrivate), ("seq", .ofNat record.sequence)]

/-- The hashes with waiters, whether they have a channel, and how many tickets. -/
def Registry.view {ν : Type} (registry : Registry ν) : Json :=
  .ofRows (fun hash => .arr [.str hash, .bool (registry.isPersistent hash),
    .ofNat (registry.pendingOneShot hash)]) registry.hashes

def Connection.view (connection : Connection) : Json :=
  .ofMembers
    [("state", .str connection.state.name), ("open", .bool connection.isOpen),
      ("authenticated", .bool connection.authenticated),
      ("received", .ofNat connection.stats.messagesReceived.toNat),
      ("parse_failures", .ofNat connection.stats.parseFailures.toNat),
      ("url", .str connection.url),
      ("max_subscriptions", .ofNat connection.settings.maxSubscriptions),
      ("subscriptions", .ofNat connection.subscriptions.count),
      ("registry", connection.registry.view),
      ("close_error", .ofOption Fault.view connection.closeFault)]

/-- An event as a row. Delays are in whole milliseconds; how long a connection was silent is not
shown. -/
def ConnectionEvent.row : ConnectionEvent → Json
  | connecting url => .ofTexts ["connecting", url]
  | connected url => .ofTexts ["connected", url]
  | resubscribed url count => .arr [.str "resubscribed", .str url, .ofNat count]
  | heartbeatTimeout url _ => .ofTexts ["heartbeat_timeout", url]
  | backoff url attempt delay =>
    .arr [.str "backoff", .str url, .ofNat attempt, .str (toString (delay / Duration.ofMillis 1))]
  | closed url reason => .ofTexts ["closed", url, reason]

end MarketFeed
