import MarketFeed.Connection.Dispatch

/-!
The things that handlers do, one by one, so that a handler can be given as a list of them.
-/

namespace MarketFeed

inductive Action where
  | affects (hash : String)
  | resolve (hash : String) (message : Json)
  | reject (hash : String) (fault : Fault)
  | fail (fault : Fault)
  | snapshot (symbol : String) (bids asks : List Level) (sequence : Option Nat)
  | batch (symbol : String) (batch : DeltaBatch)
  | addTrades (symbol : String) (trades : List Trade)
  | addCandle (symbol timeframe : String) (candle : Candle)
  | addOrder (order : Order)
  | addFill (fill : Trade)
  | sendBook (symbol : String) (depth : Option Nat) (hash : String)
  | sendTrades (symbol : String) (limit : Option Nat) (hash : String)
  | sendCandles (symbol timeframe : String) (limit : Option Nat) (hash : String)
  | sendOrders (symbol : Option String) (limit : Option Nat) (hash : String)
  | sendOwnTrades (symbol : Option String) (limit : Option Nat) (hash : String)

namespace Action

/-- Resolves a hash with something that the store holds. -/
def send (hash : String) (read : FeedStore → Update) : Handling Unit := do
  Handling.resolve hash (read (← get).store)

/-- Performs an action. -/
def run : Action → Handling Unit
  | affects hash => Handling.affects hash
  | resolve hash message => Handling.resolve hash (.message message)
  | reject hash fault => Handling.reject hash fault
  | fail fault => Handling.fail fault
  | snapshot symbol bids asks sequence => do
    let _ ← Handling.onBooks symbol (·.applySnapshot symbol bids asks sequence)
  | batch symbol changes => do
    let _ ← Handling.onBooks symbol (·.applyBatch symbol changes)
  | addTrades symbol trades => Handling.onStore (modify (·.appendTrades symbol trades))
  | addCandle symbol timeframe candle =>
    Handling.onStore (modify (·.appendCandle symbol timeframe candle))
  | addOrder order => do
    let _ ← Handling.onStore (FeedStore.upsertOrder order)
  | addFill fill => do
    match ← Handling.onStore (FeedStore.applyFill fill) with
    | .ok _ => return
    | .error fault => Handling.fail fault
  | sendBook symbol depth hash => do
    if let some book := (← get).store.book? symbol depth then
      Handling.resolve hash (.book book)
  | sendTrades symbol limit hash => send hash fun store => .trades (store.recentTrades symbol limit)
  | sendCandles symbol timeframe limit hash =>
    send hash fun store => .candles (store.recentCandles symbol timeframe limit)
  | sendOrders symbol limit hash => send hash fun store => .orders (store.recentOrders symbol limit)
  | sendOwnTrades symbol limit hash =>
    send hash fun store => .ownTrades (store.recentOwnTrades symbol limit)

end Action

end MarketFeed
