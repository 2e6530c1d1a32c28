import MarketFeed.Json.Shape

/-!
How many records each cache and each buffer holds.
-/

namespace MarketFeed

structure CacheLimits where
  trades : Nat
  orders : Nat
  ownTrades : Nat
  candles : Nat
  pendingFills : Nat
  bookBuffer : Nat
deriving DecidableEq, Repr

namespace CacheLimits

open Json (RecordField Reader)

def standard : CacheLimits := ⟨1000, 1000, 1000, 1000, 256, 100⟩

def shape : List (RecordField CacheLimits) :=
  [.defaulted "trades" (fun _ => Reader.natural 64) fun limits trades => { limits with trades },
    .defaulted "orders" (fun _ => Reader.natural 64) fun limits orders => { limits with orders },
    .defaulted "my_trades" (fun _ => Reader.natural 64)
      fun limits ownTrades => { limits with ownTrades },
    .defaulted "ohlcv" (fun _ => Reader.natural 64) fun limits candles => { limits with candles },
    .defaulted "pending_fills" (fun _ => Reader.natural 64)
      fun limits pendingFills => { limits with pendingFills },
    .defaulted "orderbook_buffer" (fun _ => Reader.natural 64)
      fun limits bookBuffer => { limits with bookBuffer }]

def reader : (levels : Nat) → Reader CacheLimits := Reader.record shape standard

def toJson (limits : CacheLimits) : Json :=
  .ofMembers
    [("trades", .ofNat limits.trades),
      ("orders", .ofNat limits.orders),
      ("my_trades", .ofNat limits.ownTrades),
      ("ohlcv", .ofNat limits.candles),
      ("pending_fills", .ofNat limits.pendingFills),
      ("orderbook_buffer", .ofNat limits.bookBuffer)]

end CacheLimits

end MarketFeed
