import MarketFeed.Book.Store
import MarketFeed.Script.Record
import MarketFeed.Script.Step
import MarketFeed.Script.View

/-!
Steps on ladders, on books and on stores of books. A book that refuses a change shows the fault as
the result of the step.
-/

namespace MarketFeed.Script

def ladderStep (script : Json) : Step Ladder Json := do
  match ← text script "do" with
  | "set" =>
    let price ← decimal script "price"
    let amount ← decimal script "amount"
    modify (·.set price amount)
    return .ofRows Level.row (← get).bestFirst
  | "replace" =>
    let levels ← listOf asLevel script "levels"
    modify (·.replace levels)
    return .ofRows Level.row (← get).bestFirst
  | "get" => return .ofOption .ofDecimal ((← get).get? (← decimal script "price"))
  | "best" => return .ofOption (fun level => .ofRows Level.row [level]) (← get).best?
  | "top" => return .ofRows Level.row ((← get).top (← optional asNat script "depth"))
  | "volume" => return .ofDecimal (← ofOverflow (← get).volume)
  | "info" =>
    let ladder ← get
    return .ofMembers
      [("side", .str ladder.side.name), ("len", .ofNat ladder.size),
        ("empty", .bool ladder.isEmpty)]
  | name => unknown name

/-- A change to a book that its feed reports. -/
inductive BookChange where
  | snapshot (bids asks : List Level) (sequence : Option Nat)
  | batch (changes : DeltaBatch)

namespace BookChange

def read (script : Json) : Reading BookChange := do
  match ← text script "do" with
  | "snapshot" =>
    return snapshot (← listOf asLevel script "bids") (← listOf asLevel script "asks")
      (← optional asNat script "seq")
  | "delta" =>
    let side ← named BookSide.table (member script "side")
    let price ← decimal script "price"
    return batch (.single side price (← decimal script "size") (← optional asNat script "seq"))
  | "batch" => return batch (← asBatch script)
  | name => unknown name

/-- Makes the change. The result is what the book makes of it. -/
def apply (change : BookChange) (book : OrderBook) : Json × OrderBook :=
  match change with
  | snapshot bids asks sequence =>
    let (result, book) := book.applySnapshot bids asks sequence
    (Fault.viewOr .ofNat result, book)
  | batch changes =>
    let (result, book) := book.applyBatch changes
    (Fault.viewOr (fun outcome => .str outcome.name) result, book)

end BookChange

def bookChange (script : Json) : Step OrderBook Json := do
  match ← text script "do" with
  | "checksum" =>
    let format ← formatOf script
    let own := (← get).checksum format
    let offset ← intOr 0 script "offset"
    let expected := (← optional asInt script "expected").getD (own + offset)
    let result ← Step.operate (·.verifyChecksum expected format)
    return Fault.viewOr (fun () => .int expected) result
  | "invalidate" =>
    modify (·.invalidate)
    return .null
  | "timestamp" =>
    let timestamp ← intOr 0 script "ts"
    modify (·.setTimestamp timestamp)
    return .null
  | _ =>
    let change ← BookChange.read script
    Step.operate change.apply

def bookStep (script : Json) : Step OrderBook Json := do
  match ← text script "do" with
  | "view" => ofOverflow ((← get).fullView (← optional asNat script "depth"))
  | _ =>
    let result ← bookChange script
    return .ofMembers [("result", result), ("state", (← get).view)]

def bookStoreChange (symbol : String) (script : Json) : Step BookStore Json := do
  match ← text script "do" with
  | "insert" =>
    let policy ← policyOf script
    modify (·.insert symbol policy)
    return .null
  | "checksum" =>
    let format ← formatOf script
    let expected ← intOr 0 script "expected"
    return Fault.viewOr (fun () => .null)
      (← Step.operate (·.verifyChecksum symbol expected format))
  | "invalidate" => return .bool (← Step.operate (·.invalidate symbol))
  | "remove" => return .ofOption OrderBook.view (← Step.operate (·.remove symbol))
  | "view" =>
    return .ofOption BookSnapshot.view
      ((← get).materialize symbol (← optional asNat script "depth"))
  | "policy" => return .ofOption (fun book => .str book.policy.name) ((← get).book? symbol)
  | _ =>
    let change ← BookChange.read script
    Step.operate (·.onBook symbol change.apply)

def bookStoreStep (script : Json) : Step BookStore Json := do
  let symbol ← symbolOf script
  let result ← bookStoreChange symbol script
  let store ← get
  return .ofMembers
    [("result", result), ("symbols", .ofTexts store.symbols), ("len", .ofNat store.books.size),
      ("empty", .bool store.books.isEmpty),
      ("state", .ofOption OrderBook.view (store.book? symbol))]

end MarketFeed.Script
