import MarketFeed.Book.Delta
import MarketFeed.Proofs.Json.Records
import MarketFeed.Proofs.Json.Yields
import MarketFeed.Record.Candle
import MarketFeed.Record.Order

/-!
# The texts of records

What the members of each record are read back as, and what is known of a record that was read: its
times and numbers have 64 bits, and its free values are nested as deep as a text can nest them.
-/

namespace MarketFeed

open Json (Layout)
open Json.Reader

lemma TradeSide.lookup_name (side : TradeSide) : table.lookup side.name = some side := by
  cases side <;> rfl

lemma Liquidity.lookup_name (role : Liquidity) : table.lookup role.name = some role := by
  cases role <;> rfl

lemma OrderKind.lookup_name (kind : OrderKind) : table.lookup kind.name = some kind := by
  cases kind <;> rfl

lemma OrderStatus.lookup_name (status : OrderStatus) : table.lookup status.name = some status := by
  cases status <;> rfl

lemma BookSide.lookup_name (side : BookSide) : table.lookup side.name = some side := by
  cases side <;> rfl

/-! Records of names and decimals. -/

lemma Fee.gets_reader (layout : Layout) (fee : Fee) (levels : Nat) :
    Gets (Fee.reader (levels + 1)) (fee.encode layout) fee := by
  have hwritten : Written levels shape _ _ :=
    .cons (takes_required (gets_text fee.currency)) <|
    .cons (takes_required (gets_decimal fee.cost)) <|
    .cons (takes_optional fee.rate fun rate _ => gets_decimal rate) .nil
  exact gets_record layout hwritten (by decide) (by simp) (ofCurrency "")

lemma Level.gets_reader (layout : Layout) (level : Level) (levels : Nat) :
    Gets (Level.reader (levels + 1)) (level.encode layout) level := by
  have hwritten : Written levels shape _ _ :=
    .cons (takes_required (gets_decimal level.price)) <|
    .cons (takes_required (gets_decimal level.amount)) .nil
  exact gets_record layout hwritten (by decide) (by simp) blank

lemma LevelUpdate.gets_reader (layout : Layout) (update : LevelUpdate) (levels : Nat) :
    Gets (LevelUpdate.reader (levels + 1)) (update.encode layout) update := by
  have hwritten : Written levels shape _ _ :=
    .cons (takes_required (gets_choice update.side.lookup_name _)) <|
    .cons (takes_required (gets_decimal update.price)) <|
    .cons (takes_required (gets_decimal update.size)) .nil
  exact gets_record layout hwritten (by decide) (by simp) blank

namespace Candle

/-- The time has 64 bits. -/
def Storable (candle : Candle) : Prop := IsInteger candle.timestamp

lemma gets_reader (layout : Layout) {candle : Candle} (h : candle.Storable) (levels : Nat) :
    Gets (reader (levels + 1)) (candle.encode layout) candle := by
  have hwritten : Written levels shape _ _ :=
    .cons (takes_required (gets_integer h)) <|
    .cons (takes_required (gets_decimal candle.opening)) <|
    .cons (takes_required (gets_decimal candle.high)) <|
    .cons (takes_required (gets_decimal candle.low)) <|
    .cons (takes_required (gets_decimal candle.closing)) <|
    .cons (takes_required (gets_decimal candle.volume)) .nil
  exact gets_record layout hwritten (by decide) (by simp) blank

lemma yields_reader (levels : Nat) : Yields (reader (levels + 1)) Storable := by
  have hinitial : blank.Storable := ⟨by decide, by decide⟩
  refine yields_record hinitial ?_
  simp only [shape, List.forall_mem_cons]
  exact ⟨yields_required yields_integer fun _ _ _ h => h,
    yields_required_of_kept fun _ _ h => h, yields_required_of_kept fun _ _ h => h,
    yields_required_of_kept fun _ _ h => h, yields_required_of_kept fun _ _ h => h,
    yields_required_of_kept fun _ _ h => h, fun _ hm => absurd hm List.not_mem_nil⟩

end Candle

namespace DeltaBatch

/-- Numbers and times have 64 bits. -/
structure Storable (batch : DeltaBatch) : Prop where
  firstSequence : ∀ n ∈ batch.firstSequence, n < 2 ^ 64
  sequence : ∀ n ∈ batch.sequence, n < 2 ^ 64
  timestamp : ∀ i ∈ batch.timestamp, IsInteger i

lemma gets_reader (layout : Layout) {batch : DeltaBatch} (h : batch.Storable) (levels : Nat) :
    Gets (reader (levels + 3)) (batch.encode layout) batch := by
  have hwritten : Written (levels + 2) shape _ _ :=
    .cons (takes_optional (r := fun _ => natural 64) batch.firstSequence
      fun n hm => gets_natural (h.firstSequence n hm)) <|
    .cons (takes_optional (r := fun _ => natural 64) batch.sequence
      fun n hm => gets_natural (h.sequence n hm)) <|
    .cons (takes_optional batch.timestamp fun i hm => gets_integer (h.timestamp i hm)) <|
    .cons (takes_required (gets_list batch.updates
      fun update _ => update.gets_reader layout levels)) .nil
  exact gets_record layout hwritten (by decide) (by simp) blank

lemma yields_reader (levels : Nat) : Yields (reader (levels + 1)) Storable := by
  refine yields_record ⟨by simp [blank], by simp [blank], by simp [blank]⟩ ?_
  simp only [shape, List.forall_mem_cons]
  exact ⟨yields_optional yields_natural fun _ _ h hn => { h with firstSequence := hn },
    yields_optional yields_natural fun _ _ h hn => { h with sequence := hn },
    yields_optional yields_integer fun _ _ h hi => { h with timestamp := hi },
    yields_required_of_kept fun _ _ h => { h with },
    fun _ hm => absurd hm List.not_mem_nil⟩

end DeltaBatch

namespace BookSnapshot

/-- The number and the time have 64 bits. -/
structure Storable (snapshot : BookSnapshot) : Prop where
  nonce : ∀ n ∈ snapshot.nonce, n < 2 ^ 64
  timestamp : ∀ i ∈ snapshot.timestamp, IsInteger i

lemma gets_reader (layout : Layout) {snapshot : BookSnapshot} (h : snapshot.Storable)
    (levels : Nat) : Gets (reader (levels + 3)) (snapshot.encode layout) snapshot := by
  have hwritten : Written (levels + 2) shape _ _ :=
    .cons (takes_required (gets_text snapshot.symbol)) <|
    .cons (takes_required (gets_list snapshot.bids
      fun level _ => level.gets_reader layout levels)) <|
    .cons (takes_required (gets_list snapshot.asks
      fun level _ => level.gets_reader layout levels)) <|
    .cons (takes_optional (r := fun _ => natural 64) snapshot.nonce
      fun n hm => gets_natural (h.nonce n hm)) <|
    .cons (takes_optional snapshot.timestamp fun i hm => gets_integer (h.timestamp i hm)) .nil
  exact gets_record layout hwritten (by decide) (by simp) blank

lemma yields_reader (levels : Nat) : Yields (reader (levels + 1)) Storable := by
  refine yields_record ⟨by simp [blank], by simp [blank]⟩ ?_
  simp only [shape, List.forall_mem_cons]
  exact ⟨yields_required_of_kept fun _ _ h => { h with },
    yields_required_of_kept fun _ _ h => { h with },
    yields_required_of_kept fun _ _ h => { h with },
    yields_optional yields_natural fun _ _ h hn => { h with nonce := hn },
    yields_optional yields_integer fun _ _ h hi => { h with timestamp := hi },
    fun _ hm => absurd hm List.not_mem_nil⟩

end BookSnapshot

namespace Trade

/-- The time has 64 bits, and the message can stand in a text below `levels` containers. -/
structure Storable (levels : Nat) (trade : Trade) : Prop where
  timestamp : IsInteger trade.timestamp
  info : trade.info.Storable levels

lemma gets_reader (layout : Layout) {trade : Trade} {levels : Nat}
    (h : trade.Storable (levels + 1)) (hx : trade.info.Exact) :
    Gets (reader (levels + 2)) (trade.encode layout) trade := by
  have hwritten : Written (levels + 1) shape _ _ :=
    .cons (takes_optional trade.id fun id _ => gets_text id) <|
    .cons (takes_optional trade.order fun order _ => gets_text order) <|
    .cons (takes_required (gets_text trade.symbol)) <|
    .cons (takes_required (gets_choice trade.side.lookup_name _)) <|
    .cons (takes_optional trade.liquidity fun role _ => gets_choice role.lookup_name _) <|
    .cons (takes_required (gets_decimal trade.price)) <|
    .cons (takes_required (gets_decimal trade.amount)) <|
    .cons (takes_required (gets_decimal trade.cost)) <|
    .cons (takes_optional trade.fee fun fee _ => fee.gets_reader layout levels) <|
    .cons (takes_required (gets_integer h.timestamp)) <|
    .cons (takes_defaulted (takes_anyValue h.info hx)) .nil
  exact gets_record layout hwritten (by decide) (by simp) blank

lemma yields_reader (levels : Nat) : Yields (reader (levels + 1)) (Storable levels) := by
  have hinitial : blank.Storable levels := by
    refine ⟨⟨by decide, by decide⟩, ?_⟩
    cases levels <;> trivial
  refine yields_record hinitial ?_
  simp only [shape, List.forall_mem_cons]
  exact ⟨yields_optional_of_kept fun _ _ h => { h with },
    yields_optional_of_kept fun _ _ h => { h with },
    yields_required_of_kept fun _ _ h => { h with },
    yields_required_of_kept fun _ _ h => { h with },
    yields_optional_of_kept fun _ _ h => { h with },
    yields_required_of_kept fun _ _ h => { h with },
    yields_required_of_kept fun _ _ h => { h with },
    yields_required_of_kept fun _ _ h => { h with },
    yields_optional_of_kept fun _ _ h => { h with },
    yields_required yields_integer fun _ _ h hi => { h with timestamp := hi },
    yields_defaulted (yields_anyValue levels) fun _ _ h hi => { h with info := hi },
    fun _ hm => absurd hm List.not_mem_nil⟩

end Trade

namespace Order

/-- Times have 64 bits, and the messages can stand in a text below `levels` containers, those of the
trades inside of two more. -/
structure Storable (levels : Nat) (order : Order) : Prop where
  timestamp : ∀ i ∈ order.timestamp, IsInteger i
  lastTradeTimestamp : ∀ i ∈ order.lastTradeTimestamp, IsInteger i
  trades : ∀ trade ∈ order.trades, trade.Storable (levels - 2)
  info : order.info.Storable levels

/-- No message has doubles in it. -/
structure Exact (order : Order) : Prop where
  trades : ∀ trade ∈ order.trades, trade.info.Exact
  info : order.info.Exact

lemma gets_reader (layout : Layout) {order : Order} {levels : Nat}
    (h : order.Storable (levels + 3)) (hx : order.Exact) :
    Gets (reader (levels + 4)) (order.encode layout) order := by
  have hwritten : Written (levels + 3) shape _ _ :=
    .cons (takes_required (gets_text order.id)) <|
    .cons (takes_optional order.clientId fun clientId _ => gets_text clientId) <|
    .cons (takes_required (gets_text order.symbol)) <|
    .cons (takes_optional order.timestamp fun i hm => gets_integer (h.timestamp i hm)) <|
    .cons (takes_optional order.lastTradeTimestamp
      fun i hm => gets_integer (h.lastTradeTimestamp i hm)) <|
    .cons (takes_optional order.kind fun kind _ => gets_choice kind.lookup_name _) <|
    .cons (takes_required (gets_choice order.side.lookup_name _)) <|
    .cons (takes_optional order.price fun price _ => gets_decimal price) <|
    .cons (takes_optional order.amount fun amount _ => gets_decimal amount) <|
    .cons (takes_required (gets_decimal order.filled)) <|
    .cons (takes_optional order.remaining fun remaining _ => gets_decimal remaining) <|
    .cons (takes_required (gets_decimal order.cost)) <|
    .cons (takes_optional order.average fun average _ => gets_decimal average) <|
    .cons (takes_required (gets_choice order.status.lookup_name _)) <|
    .cons (takes_optional order.fee fun fee _ => fee.gets_reader layout (levels + 2)) <|
    .cons (takes_defaulted (gets_list order.trades fun trade hm =>
      trade.gets_reader layout (h.trades trade hm) (hx.trades trade hm)).takes) <|
    .cons (takes_defaulted (takes_anyValue h.info hx.info)) .nil
  exact gets_record layout hwritten (by decide) (by simp) blank

lemma yields_reader (levels : Nat) : Yields (reader (levels + 4)) (Storable (levels + 3)) := by
  have hinitial : blank.Storable (levels + 3) :=
    ⟨by simp [blank, new], by simp [blank, new], by simp [blank, new], trivial⟩
  refine yields_record hinitial ?_
  simp only [shape, List.forall_mem_cons]
  exact ⟨yields_required_of_kept fun _ _ h => { h with },
    yields_optional_of_kept fun _ _ h => { h with },
    yields_required_of_kept fun _ _ h => { h with },
    yields_optional yields_integer fun _ _ h hi => { h with timestamp := hi },
    yields_optional yields_integer fun _ _ h hi => { h with lastTradeTimestamp := hi },
    yields_optional_of_kept fun _ _ h => { h with },
    yields_required_of_kept fun _ _ h => { h with },
    yields_optional_of_kept fun _ _ h => { h with },
    yields_optional_of_kept fun _ _ h => { h with },
    yields_required_of_kept fun _ _ h => { h with },
    yields_optional_of_kept fun _ _ h => { h with },
    yields_required_of_kept fun _ _ h => { h with },
    yields_optional_of_kept fun _ _ h => { h with },
    yields_required_of_kept fun _ _ h => { h with },
    yields_optional_of_kept fun _ _ h => { h with },
    yields_defaulted (yields_list (Trade.yields_reader (levels + 1)))
      fun _ _ h ht => { h with trades := ht },
    yields_defaulted (yields_anyValue (levels + 3)) fun _ _ h hi => { h with info := hi },
    fun _ hm => absurd hm List.not_mem_nil⟩

end Order

end MarketFeed
