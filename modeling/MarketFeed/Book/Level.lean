import MarketFeed.Json.Shape

/-!
Price levels, and the price ladders that one side of a book consists of. A ladder keeps its levels
in ascending order of their prices, one level to a price and none of amount zero; seen from the
market, bids run downwards and asks upwards.
-/

namespace MarketFeed

open Json (Layout RecordField Reader)

inductive BookSide where
  | bid
  | ask
deriving DecidableEq, Repr

def BookSide.name : BookSide → String
  | bid => "bid"
  | ask => "ask"

def BookSide.table : List (String × BookSide) := [bid, ask].map fun side => (side.name, side)

/-- What is offered at one price. -/
structure Level where
  price : Decimal
  amount : Decimal
deriving DecidableEq, Repr

namespace Level

def blank : Level := ⟨.zero, .zero⟩

def shape : List (RecordField Level) :=
  [.required "price" (fun _ => Reader.decimal) fun level price => { level with price },
    .required "amount" (fun _ => Reader.decimal) fun level amount => { level with amount }]

def reader : (levels : Nat) → Reader Level := Reader.record shape blank

def encode (layout : Layout) (level : Level) : Json :=
  layout.object [("price", .str level.price.toText), ("amount", .str level.amount.toText)]

def toJson (level : Level) : Json := level.encode .ascending

/-- Writes an amount at a price into levels in ascending order. An amount of zero removes the
level; a level that is there already keeps its price as it was written first. -/
def write (price amount : Decimal) : List Level → List Level
  | [] => if amount.isZero then [] else [⟨price, amount⟩]
  | level :: rest =>
    match price.compare level.price with
    | .lt => if amount.isZero then level :: rest else ⟨price, amount⟩ :: level :: rest
    | .eq => if amount.isZero then rest else ⟨level.price, amount⟩ :: rest
    | .gt => level :: write price amount rest

end Level

/-- The levels of one side. -/
structure Ladder where
  side : BookSide
  levels : List Level
deriving DecidableEq, Repr

namespace Ladder

def empty (side : BookSide) : Ladder := ⟨side, []⟩

/-- Sets the amount at a price; zero removes the level. -/
def set (ladder : Ladder) (price amount : Decimal) : Ladder :=
  { ladder with levels := Level.write price amount ladder.levels }

/-- The ladder that the given levels make up, a later one of the same price counting. -/
def replace (ladder : Ladder) (levels : List Level) : Ladder :=
  levels.foldl (fun ladder level => ladder.set level.price level.amount) (empty ladder.side)

/-- The amount at a price. -/
def get? (ladder : Ladder) (price : Decimal) : Option Decimal :=
  (ladder.levels.find? (·.price.sameValue price)).map (·.amount)

def size (ladder : Ladder) : Nat := ladder.levels.length

def isEmpty (ladder : Ladder) : Bool := ladder.levels.isEmpty

/-- The levels from the best price on. -/
def bestFirst (ladder : Ladder) : List Level :=
  match ladder.side with
  | .bid => ladder.levels.reverse
  | .ask => ladder.levels

def best? (ladder : Ladder) : Option Level := ladder.bestFirst.head?

/-- The best levels, at most `depth` of them where a depth is given. -/
def top (ladder : Ladder) (depth : Option Nat) : List Level :=
  depth.elim ladder.bestFirst ladder.bestFirst.take

/-- The sum of all amounts, from the lowest price on. -/
def volume (ladder : Ladder) : Except Decimal.Overflow Decimal :=
  Decimal.sum (ladder.levels.map (·.amount))

end Ladder

end MarketFeed
