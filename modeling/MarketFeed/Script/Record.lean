import MarketFeed.Book.Checksum
import MarketFeed.Book.Delta
import MarketFeed.Record.Candle
import MarketFeed.Record.Order
import MarketFeed.Script.Reading

/-!
Records in brief.
-/

namespace MarketFeed.Script

/-- The symbol that a script speaks of. -/
def symbolOf (script : Json) : Reading String := textOr "BTC/USDT" script "symbol"

def asFee (script : Json) : Reading Fee := do
  let currency ← textOr "" script "currency"
  return ⟨currency, ← decimal script "cost", ← optional asDecimal script "rate"⟩

/-- A trade; its cost is price times amount unless it is given. -/
def asTrade (script : Json) : Reading Trade := do
  let side ← namedOr TradeSide.table .buy script "side"
  let price ← decimal script "price"
  let amount ← decimal script "amount"
  let trade ← ofOverflow (Trade.new (← symbolOf script) side price amount (← intOr 0 script "ts"))
  return { trade with
    id := ← optional asText script "id"
    order := ← optional asText script "order"
    fee := ← optional asFee script "fee"
    liquidity := ← optional (named Liquidity.table) script "maker"
    cost := (← optional asDecimal script "cost").getD trade.cost
    info := member script "info" }

/-- An order; what is not given is as in a new order of the given amount and price. -/
def asOrder (script : Json) : Reading Order := do
  let side ← namedOr TradeSide.table .buy script "side"
  let amount ← optional asDecimal script "amount"
  let price ← optional asDecimal script "price"
  let order := Order.new (← textOr "" script "id") (← symbolOf script) side amount price
  return { order with
    clientId := ← optional asText script "client"
    status := ← namedOr OrderStatus.table order.status script "status"
    kind := (← optional (named OrderKind.table) script "type") <|> order.kind
    timestamp := ← optional asInt script "ts"
    lastTradeTimestamp := ← optional asInt script "last_ts"
    filled := (← optional asDecimal script "filled").getD order.filled
    cost := (← optional asDecimal script "cost").getD order.cost
    average := ← optional asDecimal script "average"
    remaining := (← optional asDecimal script "remaining") <|> order.remaining
    fee := ← optional asFee script "fee"
    trades := ← listOf asTrade script "trades"
    info := member script "info" }

def asCandle (script : Json) : Reading Candle := do
  match ← asItems script with
  | [timestamp, opening, high, low, closing, volume] =>
    return ⟨← asInt timestamp, ← asDecimal opening, ← asDecimal high, ← asDecimal low,
      ← asDecimal closing, ← asDecimal volume⟩
  | _ => unclear "candle"

def asLevel (script : Json) : Reading Level := do
  match ← asItems script with
  | [price, amount] => return ⟨← asDecimal price, ← asDecimal amount⟩
  | _ => unclear "level"

def asLevelUpdate (script : Json) : Reading LevelUpdate := do
  match ← asItems script with
  | [side, price, size] =>
    return ⟨← named BookSide.table side, ← asDecimal price, ← asDecimal size⟩
  | _ => unclear "update"

def asBatch (script : Json) : Reading DeltaBatch := do
  return {
    sequence := ← optional asNat script "seq"
    firstSequence := ← optional asNat script "first"
    timestamp := ← optional asInt script "ts"
    updates := ← listOf asLevelUpdate script "updates" }

def formatOf (script : Json) : Reading ChecksumFormat := do
  let format := member script "format"
  let usual := ChecksumFormat.standard
  return {
    depth := ← natOr usual.depth format "depth"
    layout := ← namedOr ChecksumLayout.table usual.layout format "layout"
    separator := ← textOr usual.separator format "separator"
    signed := !isOn format "unsigned" }

def policyOf (script : Json) : Reading SequencePolicy :=
  namedOr SequencePolicy.table .standard script "policy"

end MarketFeed.Script
