import MarketFeed.Cache.Bucket
import MarketFeed.Cache.Orders
import MarketFeed.Cache.Recent
import MarketFeed.Script.Record
import MarketFeed.Script.Step
import MarketFeed.Script.View

/-!
Steps on caches. Every cache answers the same questions about its records; a step that changes a
cache shows the records after it.
-/

namespace MarketFeed.Script

def placementOf (script : Json) : Reading Placement :=
  namedOr Placement.table .standard script "policy"

def queryOf (script : Json) : Reading Query := do
  return ⟨← optional asText script "symbol", ← optional asInt script "since",
    ← optional asNat script "limit"⟩

/-- A question about the records of a cache. -/
def inquire {α : Type} [Stamped α] (row : α → Json) (records : List α) (limit : Nat)
    (script : Json) : Reading Json := do
  match ← text script "do" with
  | "info" =>
    return .ofMembers
      [("len", .ofNat records.length), ("limit", .ofNat limit), ("empty", .bool records.isEmpty)]
  | "items" => return .ofRows row records
  | "reversed" => return .ofRows row records.reverse
  | "get_limit" =>
    let query ← queryOf script
    return .ofRows row (Query.latest query.symbol query.limit records)
  | "filter" => return .ofRows row ((← queryOf script).select records)
  | name => unknown name

def recentStep (script : Json) : Step (RecentCache Trade) Json := do
  match ← text script "do" with
  | "append" =>
    let trade ← asTrade (member script "item")
    modify (·.append trade)
    return .ofRows Trade.row (← get).records
  | "clear" =>
    modify (·.clear)
    return .ofRows Trade.row (← get).records
  | "last" => return .ofOption Trade.row (← get).last?
  | _ => inquire Trade.row (← get).records (← get).limit script

def bucketStep {α : Type} [Stamped α] (read : Json → Reading α) (row : α → Json) (script : Json) :
    Step (BucketCache α) Json := do
  match ← text script "do" with
  | "append" =>
    let record ← read (member script "item")
    modify (·.append record)
    return .ofRows row (← get).records
  | "get" => return .ofOption row ((← get).get? (← intOr 0 script "ts"))
  | "last" => return .ofOption row (← get).last?
  | _ => inquire row (← get).records (← get).limit script

/-- How records of a type are read and shown, and how the members of a script are assigned to their
fields. -/
structure RecordForm (α : Type) where
  read : Json → Reading α
  row : α → Json
  full : α → Json
  assign : (members : Json) → Reading (α → α)

/-- The assignment of a member, if there is one; a null member clears the field. -/
def assigning {α β : Type} (read : Json → Reading β) (store : Option β → α → α) (members : Json)
    (key : String) : Reading (α → α) :=
  match members.get? key with
  | none => return id
  | some _ => store <$> optional read members key

def orderForm : RecordForm Order where
  read := asOrder
  row := Order.row
  full := Order.toJson
  assign members := do
    let id ← assigning asText (fun id order => { order with id := id.getD order.id }) members "id"
    let client ← assigning asText (fun clientId order => { order with clientId }) members "client"
    let symbol ← assigning asText
      (fun symbol order => { order with symbol := symbol.getD order.symbol }) members "symbol"
    let status ← assigning (named OrderStatus.table)
      (fun status order => { order with status := status.getD order.status }) members "status"
    return status ∘ symbol ∘ client ∘ id

def tradeForm : RecordForm Trade where
  read := asTrade
  row := Trade.row
  full := Trade.toJson
  assign members := do
    let id ← assigning asText (fun id (trade : Trade) => { trade with id }) members "id"
    let symbol ← assigning asText
      (fun symbol trade => { trade with symbol := symbol.getD trade.symbol }) members "symbol"
    let time ← assigning asInt
      (fun time trade => { trade with timestamp := time.getD trade.timestamp }) members "ts"
    return time ∘ symbol ∘ id

def keyedStep {α : Type} [Identified α] (form : RecordForm α) (script : Json) :
    Step (KeyedCache α) Json := do
  let contents := fun (cache : KeyedCache α) =>
    [Json.ofNat cache.size, Json.ofRows form.row cache.records]
  match ← text script "do" with
  | "append" =>
    let record ← form.read (member script "item")
    Step.ofAttempt (KeyedCache.append record)
    return .arr (contents (← get))
  | "append_many" =>
    let records ← listOf form.read script "items"
    Step.ofAttempt (records.forM KeyedCache.append)
    return .arr (contents (← get))
  | "policy" => return .str (← get).placement.name
  | "get" => return .ofOption form.full ((← get).get? (← symbolOf script) (← text script "key"))
  | "contains" => return .bool ((← get).contains (← symbolOf script) (← text script "key"))
  | "symbol" => return .ofRows form.row ((← get).symbolRecords (← symbolOf script))
  | "modify" =>
    let symbol ← symbolOf script
    let key ← text script "key"
    let assign ← form.assign (member script "set")
    let found ← Step.ofAttempt (KeyedCache.alter symbol key (modify assign))
    return .arr (.bool found.isSome :: contents (← get))
  | _ => inquire form.row (← get).records (← get).limit script

def orderCacheChange (script : Json) : Step OrderCache Json := do
  match ← text script "do" with
  | "upsert" =>
    let order ← asOrder (member script "order")
    return .ofNat (← Step.ofAttempt (OrderCache.upsertOrder order))
  | "append" =>
    let order ← asOrder (member script "order")
    let _ ← Step.ofAttempt (OrderCache.upsertOrder order)
    return .null
  | "fill" =>
    let trade ← asTrade (member script "trade")
    match ← Step.ofAttempt (OrderCache.applyFill trade) with
    | .ok outcome => return .str outcome.name
    | .error fault => throw (.fault fault)
  | name => unknown name

def orderCacheStep (script : Json) : Step OrderCache Json := do
  match ← text script "do" with
  | "upsert" | "append" | "fill" =>
    let result ← orderCacheChange script
    let cache ← get
    return .ofMembers
      [("result", result), ("pending", .ofNat cache.pending.length),
        ("orders", .ofRows Order.row cache.records)]
  | "get" =>
    return .ofOption Order.toJson
      ((← get).orders.get? (← symbolOf script) (← text script "key"))
  | _ => inquire Order.row (← get).records (← get).orders.limit script

end MarketFeed.Script
