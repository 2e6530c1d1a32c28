import MarketFeed.Book.Checksum
import MarketFeed.Book.Delta
import MarketFeed.Fault.Basic

/-!
An order book that is kept in step with its feed. Batches that arrive before the first snapshot are
held back and replayed on it. A book that misses something or fails a checksum takes no further
batch until the next snapshot.

Every operation gives its result and the book after it; a failed operation has a book after it too.
-/

namespace MarketFeed

inductive DeltaOutcome where
  | applied
  | stale
  | buffered
deriving DecidableEq, Repr

def DeltaOutcome.name : DeltaOutcome → String
  | applied => "applied"
  | stale => "stale"
  | buffered => "buffered"

/-- `nonce` is the number of the latest batch that was applied. -/
structure OrderBook where
  symbol : String
  bids : Ladder
  asks : Ladder
  nonce : Option Nat
  timestamp : Option Int
  policy : SequencePolicy
  hasSnapshot : Bool
  needsResync : Bool
  buffered : List DeltaBatch
  bufferLimit : Nat
deriving DecidableEq, Repr

namespace OrderBook

/-- The number of batches that are held back unless told otherwise. -/
def standardBufferLimit : Nat := 100

def new (symbol : String) (policy : SequencePolicy) (bufferLimit : Nat) : OrderBook where
  symbol := symbol
  bids := .empty .bid
  asks := .empty .ask
  nonce := none
  timestamp := none
  policy := policy
  hasSnapshot := false
  needsResync := false
  buffered := []
  bufferLimit := bufferLimit

def isSynced (book : OrderBook) : Bool := book.hasSnapshot && !book.needsResync

def ladder (book : OrderBook) : BookSide → Ladder
  | .bid => book.bids
  | .ask => book.asks

/-- What the number of a batch says about it. -/
inductive Verdict where
  | due
  | stale
  | refused (reason : SyncFault)
deriving DecidableEq, Repr

/-- Judges a batch by its number. Without a policy, or without a number to compare with, every batch
is due. -/
def judge (policy : SequencePolicy) (nonce : Option Nat) (batch : DeltaBatch) : Verdict :=
  match policy, nonce, batch.sequence with
  | .unsequenced, _, _ => .due
  | _, none, _ => .due
  | .strict, some _, none => .refused .unnumbered
  | .monotonic, some _, none => .due
  | policy, some nonce, some last =>
    let first := batch.firstSequence.getD last
    if last ≤ nonce then .stale
    else if policy = .strict ∧ nonce + 1 < first then .refused (.gap (nonce + 1) first)
    else .due

def writeLevel (book : OrderBook) (update : LevelUpdate) : OrderBook :=
  match update.side with
  | .bid => { book with bids := book.bids.set update.price update.size }
  | .ask => { book with asks := book.asks.set update.price update.size }

/-- The book with the updates of a batch written, and with its number and its time. -/
def write (book : OrderBook) (batch : DeltaBatch) : OrderBook :=
  let written := batch.updates.foldl writeLevel book
  { written with
    nonce := if book.policy = .unsequenced then book.nonce else batch.sequence <|> book.nonce
    timestamp := batch.timestamp <|> book.timestamp }

/-- The fault of a book that is out of sync. -/
def syncFault (book : OrderBook) (reason : SyncFault) : Fault := .outOfSync ⟨book.symbol, reason⟩

/-- Puts the book out of sync. -/
def lose {α : Type} (book : OrderBook) (reason : SyncFault) : Except Fault α × OrderBook :=
  (.error (book.syncFault reason), { book with needsResync := true })

/-- Applies a batch to a book that has a snapshot. -/
def advance (book : OrderBook) (batch : DeltaBatch) : Except Fault DeltaOutcome × OrderBook :=
  match judge book.policy book.nonce batch with
  | .due => (.ok .applied, book.write batch)
  | .stale => (.ok .stale, book)
  | .refused reason => book.lose reason

/-- Holds a batch back; where there is no room the oldest one makes way. -/
def hold (book : OrderBook) (batch : DeltaBatch) : OrderBook :=
  let kept := if book.bufferLimit ≤ book.buffered.length then book.buffered.tail else book.buffered
  { book with buffered := kept ++ [batch] }

/-- Takes a batch: it is applied, left out as stale, held back or refused. -/
def applyBatch (book : OrderBook) (batch : DeltaBatch) : Except Fault DeltaOutcome × OrderBook :=
  if book.needsResync then (.error (book.syncFault .awaitingSnapshot), book)
  else if book.hasSnapshot then book.advance batch
  else (.ok .buffered, book.hold batch)

/-- Takes a batch of one update. -/
def applyDelta (book : OrderBook) (side : BookSide) (price size : Decimal)
    (sequence : Option Nat) : Except Fault DeltaOutcome × OrderBook :=
  book.applyBatch (.single side price size sequence)

/-- Replays batches that were held back, up to the first that is refused; those behind it stay held
back. The result is the number of batches applied, on top of `count`. -/
def replay (count : Nat) (book : OrderBook) : List DeltaBatch → Except Fault Nat × OrderBook
  | [] => (.ok count, { book with buffered := [] })
  | batch :: rest =>
    match book.advance batch with
    | (.ok .applied, book) => replay (count + 1) book rest
    | (.ok _, book) => replay count book rest
    | (.error fault, book) => (.error fault, { book with buffered := rest })

/-- The book that a snapshot starts, what was held back aside. -/
def restart (book : OrderBook) (bids asks : List Level) (sequence : Option Nat) : OrderBook :=
  { book with
    bids := book.bids.replace bids
    asks := book.asks.replace asks
    nonce := sequence
    hasSnapshot := true
    needsResync := false }

/-- Starts over from a snapshot and replays what was held back; without numbers nothing is replayed,
for it cannot be told what the snapshot already contains. The result is the number of batches
applied. -/
def applySnapshot (book : OrderBook) (bids asks : List Level) (sequence : Option Nat) :
    Except Fault Nat × OrderBook :=
  let started := book.restart bids asks sequence
  match book.policy with
  | .unsequenced => (.ok 0, { started with buffered := [] })
  | _ => started.replay 0 book.buffered

/-- The checksum of the book. -/
def checksum (book : OrderBook) (format : ChecksumFormat) : Int :=
  format.compute book.bids book.asks

/-- Compares the checksum of the book with the expected one. -/
def verifyChecksum (book : OrderBook) (expected : Int) (format : ChecksumFormat) :
    Except Fault Unit × OrderBook :=
  let computed := book.checksum format
  if computed = expected then (.ok (), book) else book.lose (.checksum expected computed)

/-- Gives the book up until the next snapshot. -/
def invalidate (book : OrderBook) : OrderBook := { book with needsResync := true, buffered := [] }

def setTimestamp (book : OrderBook) (timestamp : Int) : OrderBook :=
  { book with timestamp := some timestamp }

/-- The book as its readers see it, with at most `depth` levels on each side. -/
def materialize (book : OrderBook) (depth : Option Nat) : BookSnapshot :=
  ⟨book.symbol, book.bids.top depth, book.asks.top depth, book.nonce, book.timestamp⟩

def bestBid? (book : OrderBook) : Option Level := book.bids.best?

def bestAsk? (book : OrderBook) : Option Level := book.asks.best?

/-- A value formed from the best ask and the best bid, where there are both. -/
def fromBest {α : Type} (book : OrderBook) (f : (ask bid : Decimal) → Except Decimal.Overflow α) :
    Except Decimal.Overflow (Option α) :=
  match book.bestAsk?, book.bestBid? with
  | some ask, some bid => some <$> f ask.price bid.price
  | _, _ => .ok none

/-- The distance from the best bid up to the best ask. -/
def spread (book : OrderBook) : Except Decimal.Overflow (Option Decimal) :=
  book.fromBest fun ask bid => ask.sub bid

/-- The price in the middle between the best bid and the best ask. -/
def midPrice (book : OrderBook) : Except Decimal.Overflow (Option Decimal) :=
  book.fromBest fun ask bid => do (← ask.add bid).div .two

end OrderBook

end MarketFeed
