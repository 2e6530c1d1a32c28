import MarketFeed.Book.Crc32
import MarketFeed.Book.Level
import MarketFeed.Decimal.Text

/-!
Checksums over the best levels of a book. Prices and amounts enter in their shortest written form,
so that a checksum depends on values and not on how they were written.
-/

namespace MarketFeed

inductive ChecksumLayout where
  /-- By rank, at each rank the bid before the ask. -/
  | interleaved
  | bidsThenAsks
deriving DecidableEq, Repr

def ChecksumLayout.table : List (String × ChecksumLayout) :=
  [("interleaved", interleaved), ("bids_then_asks", bidsThenAsks)]

/-- How a checksum is formed. A signed one is read as a number in two's complement. -/
structure ChecksumFormat where
  depth : Nat
  layout : ChecksumLayout
  separator : String
  signed : Bool
deriving DecidableEq, Repr

namespace ChecksumFormat

def standard : ChecksumFormat := ⟨25, .interleaved, ":", true⟩

/-- The levels of two lists by rank. -/
def interleave : List Level → List Level → List Level
  | [], asks => asks
  | bids, [] => bids
  | bid :: bids, ask :: asks => bid :: ask :: interleave bids asks

/-- The levels that the checksum covers, in its order. -/
def covered (format : ChecksumFormat) (bids asks : Ladder) : List Level :=
  let bids := bids.top format.depth
  let asks := asks.top format.depth
  match format.layout with
  | .interleaved => interleave bids asks
  | .bidsThenAsks => bids ++ asks

def fields (level : Level) : List String :=
  [level.price.normalize.toText, level.amount.normalize.toText]

/-- The text that is summed up. -/
def payload (format : ChecksumFormat) (bids asks : Ladder) : String :=
  format.separator.intercalate ((format.covered bids asks).flatMap fields)

def compute (format : ChecksumFormat) (bids asks : Ladder) : Int :=
  let crc := (Crc32.ofText (format.payload bids asks)).toNat
  if format.signed then Int.bmod crc 0x100000000 else crc

end ChecksumFormat

end MarketFeed
