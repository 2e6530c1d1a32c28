import MarketFeed.Book.Level

/-!
Changes to a book as a feed reports them: whole snapshots, and batches of level updates that may be
numbered.
-/

namespace MarketFeed

open Json (Layout RecordField Reader)

/-- What the numbers of batches mean. -/
inductive SequencePolicy where
  /-- Nothing: every batch is applied. -/
  | unsequenced
  /-- No number may be left out. -/
  | strict
  /-- Numbers grow, with gaps. -/
  | monotonic
deriving DecidableEq, Repr

namespace SequencePolicy

def standard : SequencePolicy := unsequenced

def name : SequencePolicy → String
  | unsequenced => "unsequenced"
  | strict => "strict"
  | monotonic => "monotonic"

def table : List (String × SequencePolicy) :=
  [unsequenced, strict, monotonic].map fun policy => (policy.name, policy)

end SequencePolicy

/-- The new amount at a price; zero removes the level. -/
structure LevelUpdate where
  side : BookSide
  price : Decimal
  size : Decimal
deriving DecidableEq, Repr

namespace LevelUpdate

def blank : LevelUpdate := ⟨.bid, .zero, .zero⟩

def shape : List (RecordField LevelUpdate) :=
  [.required "side" (Reader.choice BookSide.table) fun update side => { update with side },
    .required "price" (fun _ => Reader.decimal) fun update price => { update with price },
    .required "size" (fun _ => Reader.decimal) fun update size => { update with size }]

def reader : (levels : Nat) → Reader LevelUpdate := Reader.record shape blank

def encode (layout : Layout) (update : LevelUpdate) : Json :=
  layout.object
    [("side", .str update.side.name), ("price", .str update.price.toText),
      ("size", .str update.size.toText)]

def toJson (update : LevelUpdate) : Json := update.encode .ascending

end LevelUpdate

/-- Updates that are applied together. A numbered batch covers the numbers from `firstSequence`,
which is `sequence` itself if it is left out, up to `sequence`. -/
structure DeltaBatch where
  firstSequence : Option Nat
  sequence : Option Nat
  timestamp : Option Int
  updates : List LevelUpdate
deriving DecidableEq, Repr

namespace DeltaBatch

def blank : DeltaBatch := ⟨none, none, none, []⟩

/-- A batch of one update. -/
def single (side : BookSide) (price size : Decimal) (sequence : Option Nat) : DeltaBatch :=
  { blank with sequence, updates := [⟨side, price, size⟩] }

def shape : List (RecordField DeltaBatch) :=
  [.optional "first_sequence" (fun _ => Reader.natural 64)
      fun batch firstSequence => { batch with firstSequence },
    .optional "sequence" (fun _ => Reader.natural 64)
      fun batch sequence => { batch with sequence },
    .optional "timestamp" (fun _ => Reader.integer) fun batch timestamp => { batch with timestamp },
    .required "updates" (Reader.list LevelUpdate.reader)
      fun batch updates => { batch with updates }]

def reader : (levels : Nat) → Reader DeltaBatch := Reader.record shape blank

def encode (layout : Layout) (batch : DeltaBatch) : Json :=
  layout.object
    [("first_sequence", .ofOption .ofNat batch.firstSequence),
      ("sequence", .ofOption .ofNat batch.sequence),
      ("timestamp", .ofOption .int batch.timestamp),
      ("updates", .arr (batch.updates.map (LevelUpdate.encode layout)))]

def toJson (batch : DeltaBatch) : Json := batch.encode .ascending

end DeltaBatch

/-- A book as its readers see it, the best levels first. -/
structure BookSnapshot where
  symbol : String
  bids : List Level
  asks : List Level
  nonce : Option Nat
  timestamp : Option Int
deriving DecidableEq, Repr

namespace BookSnapshot

def blank : BookSnapshot := ⟨"", [], [], none, none⟩

def shape : List (RecordField BookSnapshot) :=
  [.required "symbol" (fun _ => Reader.text) fun snapshot symbol => { snapshot with symbol },
    .required "bids" (Reader.list Level.reader) fun snapshot bids => { snapshot with bids },
    .required "asks" (Reader.list Level.reader) fun snapshot asks => { snapshot with asks },
    .optional "nonce" (fun _ => Reader.natural 64) fun snapshot nonce => { snapshot with nonce },
    .optional "timestamp" (fun _ => Reader.integer)
      fun snapshot timestamp => { snapshot with timestamp }]

def reader : (levels : Nat) → Reader BookSnapshot := Reader.record shape blank

def encode (layout : Layout) (snapshot : BookSnapshot) : Json :=
  layout.object
    [("symbol", .str snapshot.symbol),
      ("bids", .arr (snapshot.bids.map (Level.encode layout))),
      ("asks", .arr (snapshot.asks.map (Level.encode layout))),
      ("nonce", .ofOption .ofNat snapshot.nonce),
      ("timestamp", .ofOption .int snapshot.timestamp)]

def toJson (snapshot : BookSnapshot) : Json := snapshot.encode .ascending

end BookSnapshot

end MarketFeed
