import MarketFeed.Fault.Basic
import MarketFeed.Table

/-!
The subscriptions of a connection, as they were requested. Hashes that share one subscription of the
exchange join a single record; the request is sent for the first of them, and the subscription ends
with the last.
-/

namespace MarketFeed

/-- `messageHash` is the hash that the record stands for and `hashes` are all that joined it, in
order; `sequence` counts the records of a connection. -/
structure SubscriptionRecord where
  messageHash : String
  hashes : List String
  request : Json
  subscriptionKey : Option String
  isPrivate : Bool
  sequence : Nat

namespace SubscriptionRecord

/-- The key that the record is kept under. -/
def key (record : SubscriptionRecord) : String := record.subscriptionKey.getD record.messageHash

def answers (record : SubscriptionRecord) (hash : String) : Bool := record.hashes.contains hash

def join (record : SubscriptionRecord) (hash : String) : SubscriptionRecord :=
  if record.answers hash then record else { record with hashes := record.hashes ++ [hash] }

/-- Takes a hash out of the record; if the record stood for it, it now stands for the next one. -/
def detach (record : SubscriptionRecord) (hash : String) : SubscriptionRecord :=
  let hashes := record.hashes.filter (· ≠ hash)
  { record with
    hashes
    messageHash :=
      if record.messageHash = hash then hashes.head?.getD hash else record.messageHash }

/-- Records in the order in which they came into being. -/
def inOrder (records : List SubscriptionRecord) : List SubscriptionRecord :=
  records.mergeSort fun a b => a.sequence ≤ b.sequence

end SubscriptionRecord

/-- `nextSequence` is the number of the next record. -/
structure Subscriptions where
  records : Table String SubscriptionRecord
  nextSequence : Nat
  capacity : Nat

namespace Subscriptions

def new (capacity : Nat) : Subscriptions := ⟨.empty, 0, capacity⟩

def count (subscriptions : Subscriptions) : Nat := subscriptions.records.size

/-- Room for new records. -/
def remaining (subscriptions : Subscriptions) : Nat :=
  subscriptions.capacity - subscriptions.count

def put (subscriptions : Subscriptions) (key : String) (record : SubscriptionRecord) :
    Subscriptions :=
  { subscriptions with records := subscriptions.records.insert key record }

/-- Adds a record at the end. -/
def enroll (subscriptions : Subscriptions) (key : String) (record : SubscriptionRecord) :
    Subscriptions :=
  { subscriptions.put key { record with sequence := subscriptions.nextSequence } with
    nextSequence := subscriptions.nextSequence + 1 }

def full (subscriptions : Subscriptions) : Fault :=
  .exhausted ("Maximum subscriptions (" ++ toString subscriptions.capacity ++ ") reached")

/-- Records a request. The result says whether its key is new, so that it has to be sent; otherwise
the hash joins the record of the key. -/
def tryAdd (subscriptions : Subscriptions) (hash : String) (request : Json)
    (subscriptionKey : Option String) (isPrivate : Bool) : Except Fault Bool × Subscriptions :=
  let key := subscriptionKey.getD hash
  match subscriptions.records.get? key with
  | some record => (.ok false, subscriptions.put key (record.join hash))
  | none =>
    if subscriptions.capacity ≤ subscriptions.count then (.error subscriptions.full, subscriptions)
    else
      (.ok true,
        subscriptions.enroll key ⟨hash, [hash], request, subscriptionKey, isPrivate, 0⟩)

/-- Takes over records of an earlier connection, in their order. -/
def restore (subscriptions : Subscriptions) (records : List SubscriptionRecord) : Subscriptions :=
  records.foldl (fun subscriptions record => subscriptions.enroll record.key record) subscriptions

/-- Takes a hash out of every record. The records that are left without a hash are removed; they are
the result, in order. -/
def removeHash (subscriptions : Subscriptions) (hash : String) :
    List SubscriptionRecord × Subscriptions :=
  let entries := subscriptions.records.entries.map fun (key, record) =>
    (key, if record.answers hash then record.detach hash else record, record.answers hash)
  let emptied := fun (entry : String × SubscriptionRecord × Bool) =>
    entry.2.2 && entry.2.1.hashes.isEmpty
  (SubscriptionRecord.inOrder ((entries.filter emptied).map (·.2.1)),
    { subscriptions with
      records := ⟨(entries.filter fun entry => !emptied entry).map fun entry =>
        (entry.1, entry.2.1)⟩ })

/-- The records in the order in which they came into being. -/
def ordered (subscriptions : Subscriptions) : List SubscriptionRecord :=
  SubscriptionRecord.inOrder subscriptions.records.values

/-- The hashes of private channels. -/
def privateHashes (subscriptions : Subscriptions) : List String :=
  (subscriptions.ordered.filter (·.isPrivate)).flatMap (·.hashes)

def containsHash (subscriptions : Subscriptions) (hash : String) : Bool :=
  subscriptions.records.values.any (·.answers hash)

/-- Whether a hash belongs to a private channel. -/
def isPrivate (subscriptions : Subscriptions) (hash : String) : Bool :=
  subscriptions.records.values.any fun record => record.isPrivate && record.answers hash

def clear (subscriptions : Subscriptions) : Subscriptions :=
  { subscriptions with records := .empty }

end Subscriptions

end MarketFeed
