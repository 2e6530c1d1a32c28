import MarketFeed.Json.Shape

/-!
Candles: the prices and the volume of one interval, named by the time at which it opens.
-/

namespace MarketFeed

structure Candle where
  timestamp : Int
  opening : Decimal
  high : Decimal
  low : Decimal
  closing : Decimal
  volume : Decimal
deriving DecidableEq, Repr

namespace Candle

open Json (Layout RecordField Reader)

def blank : Candle := ⟨0, .zero, .zero, .zero, .zero, .zero⟩

def shape : List (RecordField Candle) :=
  [.required "timestamp" (fun _ => Reader.integer)
      fun candle timestamp => { candle with timestamp },
    .required "open" (fun _ => Reader.decimal) fun candle opening => { candle with opening },
    .required "high" (fun _ => Reader.decimal) fun candle high => { candle with high },
    .required "low" (fun _ => Reader.decimal) fun candle low => { candle with low },
    .required "close" (fun _ => Reader.decimal) fun candle closing => { candle with closing },
    .required "volume" (fun _ => Reader.decimal) fun candle volume => { candle with volume }]

def reader : (levels : Nat) → Reader Candle := Reader.record shape blank

def encode (layout : Layout) (candle : Candle) : Json :=
  layout.object
    [("timestamp", .int candle.timestamp),
      ("open", .str candle.opening.toText),
      ("high", .str candle.high.toText),
      ("low", .str candle.low.toText),
      ("close", .str candle.closing.toText),
      ("volume", .str candle.volume.toText)]

def toJson (candle : Candle) : Json := candle.encode .ascending

end Candle

end MarketFeed
