import MarketFeed.Cache.Keyed
import MarketFeed.Fault.Basic

/-!
Orders together with their fills. A fill may be reported before its order; it is parked, and applied
as soon as the order arrives.
-/

namespace MarketFeed

inductive FillOutcome where
  | applied
  | duplicate
  | parked
deriving DecidableEq, Repr

def FillOutcome.name : FillOutcome → String
  | applied => "applied"
  | duplicate => "duplicate"
  | parked => "parked"

structure OrderCache where
  orders : KeyedCache Order
  pending : List Trade
  pendingLimit : Nat

namespace OrderCache

/-- An empty cache, with room for at least one order and one parked fill. -/
def new (limit pendingLimit : Nat) (placement : Placement) : OrderCache :=
  ⟨.new limit placement, [], max pendingLimit 1⟩

def records (cache : OrderCache) : List Order := cache.orders.records

/-- Performs an operation on the orders alone. -/
def onOrders {α : Type} (attempt : Attempt (KeyedCache Order) α) : Attempt OrderCache α := do
  attempt.onPart (← get).orders fun orders cache => { cache with orders }

/-- Whether a parked fill names the order by its id or its client id. -/
def awaits (order : Order) (fill : Trade) : Bool :=
  fill.symbol == order.symbol &&
    fill.order.any fun name => name == order.id || order.clientId == some name

/-- Applies a parked fill to its order. The result is the number of orders that it changed. -/
def applyParked (symbol : String) (fill : Trade) : Attempt OrderCache Nat := do
  match fill.order with
  | none => return 0
  | some name =>
    match ← onOrders (KeyedCache.alter symbol name (Order.applyFill fill)) with
    | some true => return 1
    | _ => return 0

/-- Takes an order, new or changed, and then the parked fills that name it. The result is the number
of parked fills applied. -/
def upsertOrder (order : Order) : Attempt OrderCache Nat := do
  onOrders (KeyedCache.append order)
  let (due, rest) := (← get).pending.partition (awaits order)
  modify ({ · with pending := rest })
  due.foldlM (fun applied fill => return applied + (← applyParked order.symbol fill)) 0

/-- Parks a fill; where there is no room the oldest one is dropped. -/
def park (fill : Trade) (cache : OrderCache) : OrderCache :=
  let kept := if cache.pendingLimit ≤ cache.pending.length then cache.pending.tail
    else cache.pending
  { cache with pending := kept ++ [fill] }

/-- Applies a fill to its order, or parks it while the order is not known. A fill has to name its
order. -/
def applyFill (fill : Trade) : Attempt OrderCache (Except Fault FillOutcome) := do
  match fill.order with
  | none => return .error (.invalidRequest "fill carries no order id")
  | some name =>
    match ← onOrders (KeyedCache.alter fill.symbol name (Order.applyFill fill)) with
    | some changed => return .ok (if changed then .applied else .duplicate)
    | none =>
      modify (park fill)
      return .ok .parked

end OrderCache

end MarketFeed
