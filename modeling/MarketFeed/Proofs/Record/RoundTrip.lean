import Mathlib
import MarketFeed.Proofs.Record.Texts

/-!
# Records come back from their texts

A record is the same after it was written and read again, its decimals with all their digits, in
whatever order its members were written.
-/

namespace MarketFeed

open Json (Layout Reader)

/-- The types of the records that are handed on as texts. -/
inductive RecordKind where
  | trade
  | order
  | candle
  | fee
  | levelUpdate
  | level
  | batch
  | snapshot
deriving DecidableEq, Repr

namespace RecordKind

/-- The records of a kind. -/
def Carrier : RecordKind → Type
  | trade => Trade
  | order => Order
  | candle => Candle
  | fee => Fee
  | levelUpdate => LevelUpdate
  | level => Level
  | batch => DeltaBatch
  | snapshot => BookSnapshot

def reader : (kind : RecordKind) → (levels : Nat) → Reader kind.Carrier
  | trade => Trade.reader
  | order => Order.reader
  | candle => Candle.reader
  | fee => Fee.reader
  | levelUpdate => LevelUpdate.reader
  | level => Level.reader
  | batch => DeltaBatch.reader
  | snapshot => BookSnapshot.reader

def encode : (kind : RecordKind) → Layout → kind.Carrier → Json
  | trade => Trade.encode
  | order => Order.encode
  | candle => Candle.encode
  | fee => Fee.encode
  | levelUpdate => LevelUpdate.encode
  | level => Level.encode
  | batch => DeltaBatch.encode
  | snapshot => BookSnapshot.encode

/-- What a text has room for: times and numbers of 64 bits, and messages that nest no deeper than a
reader follows, with the record around them. -/
def Storable : (kind : RecordKind) → kind.Carrier → Prop
  | trade, record => Trade.Storable (Json.maxNesting - 1) record
  | order, record => Order.Storable (Json.maxNesting - 1) record
  | candle, record => Candle.Storable record
  | batch, record => DeltaBatch.Storable record
  | snapshot, record => BookSnapshot.Storable record
  | fee, _ | levelUpdate, _ | level, _ => True

/-- The messages that the record was read from have no doubles in them. -/
def Exact : (kind : RecordKind) → kind.Carrier → Prop
  | trade, record => record.info.Exact
  | order, record => Order.Exact record
  | candle, _ | fee, _ | levelUpdate, _ | level, _ | batch, _ | snapshot, _ => True

def write (kind : RecordKind) (layout : Layout) (record : kind.Carrier) : String :=
  (kind.encode layout record).render

def parse (kind : RecordKind) (text : String) : Except Json.Fault kind.Carrier :=
  Json.read kind.reader text

variable {kind : RecordKind} {record : kind.Carrier} {text : String}

lemma parse_write (layout : Layout) (hs : kind.Storable record) (hx : kind.Exact record) :
    kind.parse (kind.write layout record) = .ok record := by
  have hgets : Reader.Gets (kind.reader Json.maxNesting) (kind.encode layout record) record := by
    cases kind with
    | trade => exact Trade.gets_reader layout hs hx
    | order => exact Order.gets_reader layout hs hx
    | candle => exact Candle.gets_reader layout hs _
    | fee => exact Fee.gets_reader layout record _
    | levelUpdate => exact LevelUpdate.gets_reader layout record _
    | level => exact Level.gets_reader layout record _
    | batch => exact DeltaBatch.gets_reader layout hs _
    | snapshot => exact BookSnapshot.gets_reader layout hs _
  exact hgets.read_render

lemma storable_of_parse (h : kind.parse text = .ok record) : kind.Storable record := by
  have hyields : Reader.Yields (kind.reader Json.maxNesting) kind.Storable := by
    cases kind with
    | trade => exact Trade.yields_reader _
    | order => exact Order.yields_reader _
    | candle => exact Candle.yields_reader _
    | batch => exact DeltaBatch.yields_reader _
    | snapshot => exact BookSnapshot.yields_reader _
    | fee => exact Reader.yields_true _
    | levelUpdate => exact Reader.yields_true _
    | level => exact Reader.yields_true _
  exact hyields.of_read h

/-- A record without doubles that a text has room for comes back from the text that it is written
as; so does one that was read from any text. -/
theorem records_come_back (kind : RecordKind) (layout : Layout) (record : kind.Carrier)
    (hx : kind.Exact record) :
    (kind.Storable record → kind.parse (kind.write layout record) = .ok record) ∧
      ∀ text, kind.parse text = .ok record →
        kind.parse (kind.write layout record) = .ok record :=
  ⟨fun hs => parse_write layout hs hx,
    fun _ h => parse_write layout (storable_of_parse h) hx⟩

/-- A fill with a fee, and the message that it came in. -/
def paidFill : Trade where
  id := some "7"
  order := none
  symbol := "BTC/USDT"
  side := .buy
  liquidity := none
  price := ⟨150, 2, by decide, by decide⟩
  amount := .two
  cost := ⟨300, 2, by decide, by decide⟩
  fee := some ⟨"USDT", ⟨10, 2, by decide, by decide⟩, none⟩
  timestamp := -5
  info := .obj [("b", .int 1), ("c", .null)]

/-- The same fill as a list, its message with the keys in another order. -/
def paidFillText : String :=
  "[\"7\",null,\"BTC/USDT\",\"buy\",null,\"1.50\",2,\"3.00\",[\"USDT\",\"0.10\",null],-5," ++
    "\x7b\"c\":null,\"b\":1\x7d]"

set_option maxRecDepth 4000 in
theorem paid_fill_comes_back :
    let kind : RecordKind := .trade
    kind.Exact paidFill ∧ kind.Storable paidFill ∧ kind.parse paidFillText = .ok paidFill ∧
      kind.parse (kind.write .declared paidFill) = .ok paidFill ∧
      kind.parse (kind.write .ascending paidFill) = .ok paidFill := by
  have hexact : Exact .trade paidFill := .obj (by
    simp only [List.forall_mem_cons]
    exact ⟨.int 1, .null, fun _ hm => absurd hm List.not_mem_nil⟩)
  have hstorable : Storable .trade paidFill := by
    refine ⟨⟨by decide, by decide⟩, List.pairwise_pair.mpr (by decide), ?_⟩
    simp only [List.forall_mem_cons]
    exact ⟨⟨by decide, by decide⟩, trivial, fun _ hm => absurd hm List.not_mem_nil⟩
  have htext : parse .trade paidFillText = .ok paidFill := by cbv
  exact ⟨hexact, hstorable, htext, (records_come_back .trade .declared paidFill hexact).1 hstorable,
    (records_come_back .trade .ascending paidFill hexact).2 paidFillText htext⟩

end RecordKind

end MarketFeed
