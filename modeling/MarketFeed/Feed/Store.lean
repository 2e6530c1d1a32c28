import MarketFeed.Book.Store
import MarketFeed.Cache.Bucket
import MarketFeed.Cache.Orders
import MarketFeed.Cache.Recent
import MarketFeed.Settings.CacheLimits

/-!
Everything that a feed has reported: books, public trades by symbol, candles by symbol and
timeframe, and one's own orders and fills across all symbols.
-/

namespace MarketFeed

structure FeedStore where
  limits : CacheLimits
  books : BookStore
  trades : Table String (RecentCache Trade)
  candles : Table (String × String) (BucketCache Candle)
  orders : OrderCache
  ownTrades : KeyedCache Trade

namespace FeedStore

/-- An empty store whose books follow the given policy. -/
def new (limits : CacheLimits) (policy : SequencePolicy) : FeedStore where
  limits := limits
  books := .new policy limits.bookBuffer
  trades := .empty
  candles := .empty
  orders := .new limits.orders limits.pendingFills .standard
  ownTrades := .new limits.ownTrades .standard

def tradeCache (store : FeedStore) (symbol : String) : RecentCache Trade :=
  (store.trades.get? symbol).getD (.new store.limits.trades)

def candleCache (store : FeedStore) (symbol timeframe : String) : BucketCache Candle :=
  (store.candles.get? (symbol, timeframe)).getD (.new store.limits.candles)

def appendTrades (store : FeedStore) (symbol : String) (trades : List Trade) : FeedStore :=
  let cache := trades.foldl RecentCache.append (store.tradeCache symbol)
  { store with trades := store.trades.insert symbol cache }

def appendCandle (store : FeedStore) (symbol timeframe : String) (candle : Candle) : FeedStore :=
  let cache := (store.candleCache symbol timeframe).append candle
  { store with candles := store.candles.insert (symbol, timeframe) cache }

/-- The newest public trades of a symbol. -/
def recentTrades (store : FeedStore) (symbol : String) (limit : Option Nat) : List Trade :=
  Query.select ⟨none, none, limit⟩ (store.tradeCache symbol).records

def recentCandles (store : FeedStore) (symbol timeframe : String) (limit : Option Nat) :
    List Candle :=
  Query.select ⟨none, none, limit⟩ (store.candleCache symbol timeframe).records

/-- Takes an order. The result is the number of parked fills applied to it. -/
def upsertOrder (order : Order) : Attempt FeedStore Nat := do
  (OrderCache.upsertOrder order).onPart (← get).orders fun orders store => { store with orders }

/-- Takes a fill. It is kept among one's own trades even if its order refuses it. -/
def applyFill (fill : Trade) : Attempt FeedStore (Except Fault FillOutcome) := do
  (KeyedCache.append fill).onPart (← get).ownTrades fun ownTrades store => { store with ownTrades }
  (OrderCache.applyFill fill).onPart (← get).orders fun orders store => { store with orders }

/-- The newest orders, of one symbol or of all. -/
def recentOrders (store : FeedStore) (symbol : Option String) (limit : Option Nat) : List Order :=
  Query.select ⟨symbol, none, limit⟩ store.orders.records

/-- The newest of one's own trades, of one symbol or of all. -/
def recentOwnTrades (store : FeedStore) (symbol : Option String) (limit : Option Nat) :
    List Trade :=
  Query.select ⟨symbol, none, limit⟩ store.ownTrades.records

/-- The order with the given id or client id. -/
def order? (store : FeedStore) (symbol key : String) : Option Order :=
  store.orders.orders.get? symbol key

def pendingFills (store : FeedStore) : Nat := store.orders.pending.length

def book? (store : FeedStore) (symbol : String) (depth : Option Nat) : Option BookSnapshot :=
  store.books.materialize symbol depth

end FeedStore

end MarketFeed
