import MarketFeed.Decimal.Attempt
import MarketFeed.Record.Trade

/-!
Orders and how they change: by single fills, and by newer records of the same order.
-/

namespace MarketFeed

inductive OrderKind where
  | market
  | limit
deriving DecidableEq, Repr

def OrderKind.name : OrderKind → String
  | market => "market"
  | limit => "limit"

def OrderKind.table : List (String × OrderKind) := [market, limit].map fun kind => (kind.name, kind)

inductive OrderStatus where
  | live
  | closed
  | canceled
  | expired
  | rejected
deriving DecidableEq, Repr

def OrderStatus.name : OrderStatus → String
  | live => "open"
  | closed => "closed"
  | canceled => "canceled"
  | expired => "expired"
  | rejected => "rejected"

def OrderStatus.table : List (String × OrderStatus) :=
  [live, closed, canceled, expired, rejected].map fun status => (status.name, status)

/-- An order as its updates and fills describe it. An order whose `id` is empty has none yet. -/
structure Order where
  id : String
  clientId : Option String
  symbol : String
  timestamp : Option Int
  lastTradeTimestamp : Option Int
  kind : Option OrderKind
  side : TradeSide
  price : Option Decimal
  amount : Option Decimal
  filled : Decimal
  remaining : Option Decimal
  cost : Decimal
  average : Option Decimal
  status : OrderStatus
  fee : Option Fee
  trades : List Trade
  info : Json

namespace Order

open Json (Layout RecordField Reader)

/-- An open order with nothing filled; one with a price is a limit order. -/
def new (id symbol : String) (side : TradeSide) (amount price : Option Decimal) : Order where
  id := id
  clientId := none
  symbol := symbol
  timestamp := none
  lastTradeTimestamp := none
  kind := price.map fun _ => .limit
  side := side
  price := price
  amount := amount
  filled := .zero
  remaining := amount
  cost := .zero
  average := none
  status := .live
  fee := none
  trades := []
  info := .null

/-- What is left of `amount` after `filled`, not below zero. -/
def remainder (amount filled : Decimal) : Except Decimal.Overflow Decimal := do
  return (← amount.sub filled).max .zero

/-- The costs and the amounts of trades, each summed from the left. -/
def totals (trades : List Trade) : Except Decimal.Overflow (Decimal × Decimal) :=
  trades.foldlM (fun (cost, amount) trade => do
    return (← cost.add trade.cost, ← amount.add trade.amount)) (.zero, .zero)

/-- Whether a fill of the same trade id is recorded already. -/
def hasTrade (order : Order) (trade : Trade) : Bool :=
  match trade.id with
  | some id => order.trades.any (·.id == some id)
  | none => false

/-- Records the trade in the history. -/
def record (order : Order) (trade : Trade) : Order :=
  { order with
    trades := order.trades ++ [trade]
    lastTradeTimestamp :=
      some (order.lastTradeTimestamp.elim trade.timestamp (max · trade.timestamp)) }

/-- Sets what is left, and closes an open order of which nothing is left. -/
def settle (order : Order) (remaining : Decimal) : Order :=
  { order with
    remaining := some remaining
    status := if remaining.isZero ∧ order.status = .live then .closed else order.status }

/-- Recomputes cost and average from the trade history. -/
def recost : Attempt Order Unit := do
  let (cost, amount) ← Attempt.of (totals (← get).trades)
  modify ({ · with cost })
  if amount.isPositive then
    let average ← Attempt.of (cost.div amount)
    modify ({ · with average := some average })

/-- Adds to the filled amount and recomputes what is left. -/
def addFilled (amount : Decimal) : Attempt Order Unit := do
  let filled ← Attempt.of ((← get).filled.add amount)
  modify ({ · with filled })
  if let some amount := (← get).amount then
    let remaining ← Attempt.of (remainder amount filled)
    modify (·.settle remaining)

/-- Adds a fee to the order's fee. A fee in another currency than the order's is left out. -/
def addFee (charged : Fee) : Attempt Order Unit := do
  modify fun order => { order with fee := order.fee.getD (.ofCurrency charged.currency) }
  if let some fee := (← get).fee then
    if fee.currency = charged.currency then
      let cost ← Attempt.of (fee.cost.add charged.cost)
      modify ({ · with fee := some { fee with cost } })

/-- Applies one fill, unless a fill of the same trade id was applied before. Says whether the
order changed. -/
def applyFill (trade : Trade) : Attempt Order Bool := do
  if (← get).hasTrade trade then return false
  modify (·.record trade)
  recost
  addFilled trade.amount
  if let some fee := trade.fee then addFee fee
  return true

/-- The newer record with what it leaves open taken from the older one: identity, time and kind. -/
def withIdentityOf (newer older : Order) : Order :=
  { newer with
    clientId := newer.clientId <|> older.clientId
    timestamp := newer.timestamp <|> older.timestamp
    kind := newer.kind <|> older.kind }

/-- The record with the fill history of `older` and the larger of the two filled amounts. -/
def withHistoryOf (newer older : Order) : Order :=
  { newer with
    trades := older.trades
    filled := newer.filled.max older.filled
    cost := older.cost
    average := older.average
    lastTradeTimestamp := older.lastTradeTimestamp }

/-- Replaces the order by a newer record of it. What the newer record does not report is kept: the
identity, the fill history and the fee. -/
def mergeUpdate (newer : Order) : Attempt Order Unit := do
  let older ← get
  set (newer.withIdentityOf older)
  if newer.trades.isEmpty ∧ !older.trades.isEmpty then
    modify (·.withHistoryOf older)
    if let some amount := newer.amount then
      let remaining ← Attempt.of (remainder amount (← get).filled)
      modify ({ · with remaining := some remaining })
  modify fun order => { order with fee := order.fee <|> older.fee }

/-- The record that reading starts from. -/
def blank : Order := new "" "" .buy none none

def shape : List (RecordField Order) :=
  [.required "id" (fun _ => Reader.text) fun order id => { order with id },
    .optional "client_order_id" (fun _ => Reader.text)
      fun order clientId => { order with clientId },
    .required "symbol" (fun _ => Reader.text) fun order symbol => { order with symbol },
    .optional "timestamp" (fun _ => Reader.integer) fun order timestamp => { order with timestamp },
    .optional "last_trade_timestamp" (fun _ => Reader.integer)
      fun order lastTradeTimestamp => { order with lastTradeTimestamp },
    .optional "order_type" (Reader.choice OrderKind.table) fun order kind => { order with kind },
    .required "side" (Reader.choice TradeSide.table) fun order side => { order with side },
    .optional "price" (fun _ => Reader.decimal) fun order price => { order with price },
    .optional "amount" (fun _ => Reader.decimal) fun order amount => { order with amount },
    .required "filled" (fun _ => Reader.decimal) fun order filled => { order with filled },
    .optional "remaining" (fun _ => Reader.decimal)
      fun order remaining => { order with remaining },
    .required "cost" (fun _ => Reader.decimal) fun order cost => { order with cost },
    .optional "average" (fun _ => Reader.decimal) fun order average => { order with average },
    .required "status" (Reader.choice OrderStatus.table) fun order status => { order with status },
    .optional "fee" Fee.reader fun order fee => { order with fee },
    .defaulted "trades" (Reader.list Trade.reader) fun order trades => { order with trades },
    .defaulted "info" Reader.anyValue fun order info => { order with info }]

def reader : (levels : Nat) → Reader Order := Reader.record shape blank

def encode (layout : Layout) (order : Order) : Json :=
  layout.object
    [("id", .str order.id),
      ("client_order_id", .ofOption .str order.clientId),
      ("symbol", .str order.symbol),
      ("timestamp", .ofOption .int order.timestamp),
      ("last_trade_timestamp", .ofOption .int order.lastTradeTimestamp),
      ("order_type", .ofOption (fun kind => .str kind.name) order.kind),
      ("side", .str order.side.name),
      ("price", .ofOption (fun price => .str price.toText) order.price),
      ("amount", .ofOption (fun amount => .str amount.toText) order.amount),
      ("filled", .str order.filled.toText),
      ("remaining", .ofOption (fun remaining => .str remaining.toText) order.remaining),
      ("cost", .str order.cost.toText),
      ("average", .ofOption (fun average => .str average.toText) order.average),
      ("status", .str order.status.name),
      ("fee", .ofOption (Fee.encode layout) order.fee),
      ("trades", .arr (order.trades.map (Trade.encode layout))),
      ("info", order.info)]

def toJson (order : Order) : Json := order.encode .ascending

end Order

end MarketFeed
