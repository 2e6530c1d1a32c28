import MarketFeed.Book.OrderBook
import MarketFeed.Table

/-!
The books of many symbols. A book comes into being with the first snapshot, batch or checksum for
its symbol; reading creates none.
-/

namespace MarketFeed

structure BookStore where
  books : Table String OrderBook
  policy : SequencePolicy
  bufferLimit : Nat

namespace BookStore

def new (policy : SequencePolicy) (bufferLimit : Nat) : BookStore := ⟨.empty, policy, bufferLimit⟩

def standard : BookStore := new .standard OrderBook.standardBufferLimit

def book? (store : BookStore) (symbol : String) : Option OrderBook := store.books.get? symbol

/-- The book of a symbol, a new one if there is none. -/
def bookOrNew (store : BookStore) (symbol : String) : OrderBook :=
  (store.book? symbol).getD (.new symbol store.policy store.bufferLimit)

def put (store : BookStore) (symbol : String) (book : OrderBook) : BookStore :=
  { store with books := store.books.insert symbol book }

/-- Performs an operation on the book of a symbol, which is created if need be. -/
def onBook {α : Type} (store : BookStore) (symbol : String)
    (operation : OrderBook → α × OrderBook) : α × BookStore :=
  let (result, book) := operation (store.bookOrNew symbol)
  (result, store.put symbol book)

/-- Starts an empty book of the given policy, in place of any other. -/
def insert (store : BookStore) (symbol : String) (policy : SequencePolicy) : BookStore :=
  store.put symbol (.new symbol policy store.bufferLimit)

def applySnapshot (store : BookStore) (symbol : String) (bids asks : List Level)
    (sequence : Option Nat) : Except Fault Nat × BookStore :=
  store.onBook symbol (·.applySnapshot bids asks sequence)

def applyDelta (store : BookStore) (symbol : String) (side : BookSide) (price size : Decimal)
    (sequence : Option Nat) : Except Fault DeltaOutcome × BookStore :=
  store.onBook symbol (·.applyDelta side price size sequence)

def applyBatch (store : BookStore) (symbol : String) (batch : DeltaBatch) :
    Except Fault DeltaOutcome × BookStore :=
  store.onBook symbol (·.applyBatch batch)

def verifyChecksum (store : BookStore) (symbol : String) (expected : Int)
    (format : ChecksumFormat) : Except Fault Unit × BookStore :=
  store.onBook symbol (·.verifyChecksum expected format)

def materialize (store : BookStore) (symbol : String) (depth : Option Nat) : Option BookSnapshot :=
  (store.book? symbol).map (·.materialize depth)

/-- Gives up the book of a symbol, and says whether there is one. -/
def invalidate (store : BookStore) (symbol : String) : Bool × BookStore :=
  match store.book? symbol with
  | some book => (true, store.put symbol book.invalidate)
  | none => (false, store)

/-- Removes the book of a symbol and gives it back. -/
def remove (store : BookStore) (symbol : String) : Option OrderBook × BookStore :=
  (store.book? symbol, { store with books := store.books.erase symbol })

def symbols (store : BookStore) : List String := store.books.sortedKeys

end BookStore

end MarketFeed
