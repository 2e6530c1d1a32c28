import MarketFeed.Feed.Store
import MarketFeed.Feed.Update
import MarketFeed.Registry.Basic

/-!
What a handler does with one frame. It writes to the store at once; what it has for the waiters is
queued, and given out when the handler is done.
-/

namespace MarketFeed

/-- `affected` are the hashes that the frame concerns and `books` the symbols whose books it may
have written, each of them once. -/
structure Dispatch where
  url : String
  store : FeedStore
  affected : List String
  deliveries : List (String × Delivery Update)
  books : List String

/-- Why a handler stops early. -/
inductive Stop where
  | fault (fault : Fault)
  | overflow (overflow : Decimal.Overflow)

/-- A step of a handler. -/
abbrev Handling := ExceptT Stop (StateM Dispatch)

/-- A handler of frames. -/
abbrev Handler := Json → Handling Unit

namespace Dispatch

/-- Nothing has been done yet with a frame from `url`. -/
def new (url : String) (store : FeedStore) : Dispatch := ⟨url, store, [], [], []⟩

def addAffected (dispatch : Dispatch) (hash : String) : Dispatch :=
  if dispatch.affected.contains hash then dispatch
  else { dispatch with affected := dispatch.affected ++ [hash] }

def addBook (dispatch : Dispatch) (symbol : String) : Dispatch :=
  if dispatch.books.contains symbol then dispatch
  else { dispatch with books := dispatch.books ++ [symbol] }

def queue (dispatch : Dispatch) (hash : String) (delivery : Delivery Update) : Dispatch :=
  { dispatch.addAffected hash with deliveries := dispatch.deliveries ++ [(hash, delivery)] }

end Dispatch

namespace Handling

def fail {α : Type} (fault : Fault) : Handling α := throw (.fault fault)

/-- Declares that the frame concerns a hash. -/
def affects (hash : String) : Handling Unit := modify (·.addAffected hash)

def resolve (hash : String) (update : Update) : Handling Unit := modify (·.queue hash (.ok update))

def reject (hash : String) (fault : Fault) : Handling Unit := modify (·.queue hash (.error fault))

/-- Changes the store. -/
def onStore {α : Type} (change : Attempt FeedStore α) : Handling α := do
  let (result, store) := change.runOn (← get).store
  modify ({ · with store })
  match result with
  | .ok a => return a
  | .error overflow => throw (.overflow overflow)

/-- Changes the book of a symbol, which the connection that the frame came from answers for. -/
def onBooks {α : Type} (symbol : String) (change : BookStore → Except Fault α × BookStore) :
    Handling α := do
  modify (·.addBook symbol)
  let (result, books) := change (← get).store.books
  modify fun dispatch => { dispatch with store := { dispatch.store with books } }
  match result with
  | .ok a => return a
  | .error fault => fail fault

end Handling

end MarketFeed
