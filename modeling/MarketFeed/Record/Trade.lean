import MarketFeed.Record.Fee

/-!
Trades: public ones and the fills of one's own orders.
-/

namespace MarketFeed

inductive TradeSide where
  | buy
  | sell
deriving DecidableEq, Repr

def TradeSide.name : TradeSide → String
  | buy => "buy"
  | sell => "sell"

def TradeSide.table : List (String × TradeSide) := [buy, sell].map fun side => (side.name, side)

/-- Which part of a trade waited in the book and which part took from it. -/
inductive Liquidity where
  | maker
  | taker
deriving DecidableEq, Repr

def Liquidity.name : Liquidity → String
  | maker => "maker"
  | taker => "taker"

def Liquidity.table : List (String × Liquidity) := [maker, taker].map fun role => (role.name, role)

/-- A trade. `order` links a fill to the order that it belongs to; `info` is the message that the
trade was read from. -/
structure Trade where
  id : Option String
  order : Option String
  symbol : String
  side : TradeSide
  liquidity : Option Liquidity
  price : Decimal
  amount : Decimal
  cost : Decimal
  fee : Option Fee
  timestamp : Int
  info : Json

namespace Trade

open Json (Layout RecordField Reader)

/-- A trade whose cost is price times amount. -/
def new (symbol : String) (side : TradeSide) (price amount : Decimal) (timestamp : Int) :
    Except Decimal.Overflow Trade := do
  let cost ← price.mul amount
  return {
    id := none, order := none, symbol, side, liquidity := none, price, amount, cost, fee := none,
    timestamp, info := .null }

def isBuy (trade : Trade) : Bool := trade.side == .buy

/-- The record that reading starts from. -/
def blank : Trade where
  id := none
  order := none
  symbol := ""
  side := .buy
  liquidity := none
  price := .zero
  amount := .zero
  cost := .zero
  fee := none
  timestamp := 0
  info := .null

def shape : List (RecordField Trade) :=
  [.optional "id" (fun _ => Reader.text) fun trade id => { trade with id },
    .optional "order" (fun _ => Reader.text) fun trade order => { trade with order },
    .required "symbol" (fun _ => Reader.text) fun trade symbol => { trade with symbol },
    .required "side" (Reader.choice TradeSide.table) fun trade side => { trade with side },
    .optional "taker_or_maker" (Reader.choice Liquidity.table)
      fun trade liquidity => { trade with liquidity },
    .required "price" (fun _ => Reader.decimal) fun trade price => { trade with price },
    .required "amount" (fun _ => Reader.decimal) fun trade amount => { trade with amount },
    .required "cost" (fun _ => Reader.decimal) fun trade cost => { trade with cost },
    .optional "fee" Fee.reader fun trade fee => { trade with fee },
    .required "timestamp" (fun _ => Reader.integer) fun trade timestamp => { trade with timestamp },
    .defaulted "info" Reader.anyValue fun trade info => { trade with info }]

def reader : (levels : Nat) → Reader Trade := Reader.record shape blank

def encode (layout : Layout) (trade : Trade) : Json :=
  layout.object
    [("id", .ofOption .str trade.id),
      ("order", .ofOption .str trade.order),
      ("symbol", .str trade.symbol),
      ("side", .str trade.side.name),
      ("taker_or_maker", .ofOption (fun role => .str role.name) trade.liquidity),
      ("price", .str trade.price.toText),
      ("amount", .str trade.amount.toText),
      ("cost", .str trade.cost.toText),
      ("fee", .ofOption (Fee.encode layout) trade.fee),
      ("timestamp", .int trade.timestamp),
      ("info", trade.info)]

def toJson (trade : Trade) : Json := trade.encode .ascending

end Trade

end MarketFeed
