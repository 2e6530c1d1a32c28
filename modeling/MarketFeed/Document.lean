import MarketFeed.Book.Delta
import MarketFeed.Record.Candle
import MarketFeed.Record.Order
import MarketFeed.Settings.CacheLimits
import MarketFeed.Settings.Connection

/-!
Documents by the names of their types. A document that can be read is written again in its normal
form.
-/

namespace MarketFeed.Document

/-- The normal form of a document of a given type. -/
abbrev Normalizer := String → Except Json.Fault Json

def normalizer {α : Type} (reader : (levels : Nat) → Json.Reader α) (toJson : α → Json) :
    Normalizer :=
  fun text => toJson <$> Json.read reader text

/-- The normalizer of names out of a table. -/
def nameNormalizer {α : Type} (table : List (String × α)) (name : α → String) : Normalizer :=
  normalizer (Json.Reader.choice table) fun a => .str (name a)

def normalizers : List (String × Normalizer) :=
  [("trade", normalizer Trade.reader Trade.toJson),
    ("order", normalizer Order.reader Order.toJson),
    ("ohlcv", normalizer Candle.reader Candle.toJson),
    ("fee", normalizer Fee.reader Fee.toJson),
    ("order_side", nameNormalizer TradeSide.table TradeSide.name),
    ("order_type", nameNormalizer OrderKind.table OrderKind.name),
    ("order_status", nameNormalizer OrderStatus.table OrderStatus.name),
    ("taker_or_maker", nameNormalizer Liquidity.table Liquidity.name),
    ("side", nameNormalizer BookSide.table BookSide.name),
    ("level", normalizer Level.reader Level.toJson),
    ("level_update", normalizer LevelUpdate.reader LevelUpdate.toJson),
    ("delta_batch", normalizer DeltaBatch.reader DeltaBatch.toJson),
    ("book_snapshot", normalizer BookSnapshot.reader BookSnapshot.toJson),
    ("sequence_policy", nameNormalizer SequencePolicy.table SequencePolicy.name),
    ("heartbeat_config", normalizer Heartbeat.reader Heartbeat.toJson),
    ("backoff_config", normalizer Backoff.reader Backoff.toJson),
    ("reconnect_policy", normalizer Reconnect.reader Reconnect.toJson),
    ("cache_limits", normalizer CacheLimits.reader CacheLimits.toJson),
    ("ws_config", normalizer ConnectionSettings.reader ConnectionSettings.toJson)]

end MarketFeed.Document
