import MarketFeed.Book.Delta
import MarketFeed.Record.Candle
import MarketFeed.Record.Order

/-!
What the waiters of a feed are given.
-/

namespace MarketFeed

inductive Update where
  | book (snapshot : BookSnapshot)
  | trades (trades : List Trade)
  | orders (orders : List Order)
  | ownTrades (trades : List Trade)
  | candles (candles : List Candle)
  /-- Any other message, such as an acknowledgement. -/
  | message (message : Json)

instance : Inhabited Update := ⟨.message .null⟩

end MarketFeed
