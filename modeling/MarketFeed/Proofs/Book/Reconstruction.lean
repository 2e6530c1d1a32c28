import MarketFeed.Proofs.Book.Ladder
import MarketFeed.Proofs.Book.Run

/-!
# Reconstruction of a book from its journal

A journal describes one price map for each side: a snapshot starts it over, an applied batch writes
into it. Along every run from a new book, the sides are the maps of the journal and stay in order.
-/

namespace MarketFeed

namespace PriceMap

/-- Writes the updates of one side in their order. -/
def writeUpdates (side : BookSide) (prices : PriceMap) (updates : List LevelUpdate) : PriceMap :=
  updates.foldl (fun prices update =>
    if update.side = side then prices.write update.price update.size else prices) prices

def record (side : BookSide) (prices : PriceMap) : JournalEntry → PriceMap
  | .restarted bids asks _ =>
    empty.writeLevels (match side with
      | .bid => bids
      | .ask => asks)
  | .applied batch => prices.writeUpdates side batch.updates

/-- One side as a journal describes it. -/
def ofJournal (side : BookSide) (log : List JournalEntry) : PriceMap :=
  log.foldl (record side) empty

lemma ofJournal_concat (side : BookSide) (log : List JournalEntry) (entry : JournalEntry) :
    ofJournal side (log ++ [entry]) = record side (ofJournal side log) entry := by
  rw [ofJournal, List.foldl_append]
  rfl

end PriceMap

namespace OrderBook

/-- Each ladder is on its side and in order. -/
structure Ordered (book : OrderBook) : Prop where
  side_eq : ∀ side, (book.ladder side).side = side
  levels : ∀ side, Level.Ordered (book.ladder side).levels

variable {book : OrderBook}

lemma ladder_writeLevel (book : OrderBook) (update : LevelUpdate) (side : BookSide) :
    (book.writeLevel update).ladder side =
      if update.side = side then (book.ladder side).set update.price update.size
      else book.ladder side := by
  cases hu : update.side <;> cases side <;> simp [writeLevel, ladder, hu]

lemma writeLevel_spec (h : book.Ordered) (update : LevelUpdate) :
    (book.writeLevel update).Ordered ∧ ∀ side, ((book.writeLevel update).ladder side).prices =
      (book.ladder side).prices.writeUpdates side [update] := by
  refine ⟨⟨fun side => ?_, fun side => ?_⟩, fun side => ?_⟩
  · rw [ladder_writeLevel]
    split_ifs
    · exact h.side_eq side
    · exact h.side_eq side
  · rw [ladder_writeLevel]
    split_ifs
    · exact Ladder.ordered_set (h.levels side) update.price update.size
    · exact h.levels side
  · rw [ladder_writeLevel, PriceMap.writeUpdates, List.foldl_cons, List.foldl_nil]
    split_ifs
    · exact Ladder.prices_set (h.levels side) update.price update.size
    · rfl

lemma writeUpdates_spec (h : book.Ordered) (updates : List LevelUpdate) :
    (updates.foldl writeLevel book).Ordered ∧ ∀ side,
      ((updates.foldl writeLevel book).ladder side).prices =
        (book.ladder side).prices.writeUpdates side updates := by
  induction updates generalizing book with
  | nil => exact ⟨h, fun _ => rfl⟩
  | cons update rest ih =>
    obtain ⟨ho, hp⟩ := writeLevel_spec h update
    obtain ⟨hr, hq⟩ := ih ho
    refine ⟨hr, fun side => ?_⟩
    rw [List.foldl_cons, hq side, hp side]
    rfl

lemma restart_spec (h : book.Ordered) (bids asks : List Level) (sequence : Option Nat) :
    (book.restart bids asks sequence).Ordered ∧ ∀ side prices,
      ((book.restart bids asks sequence).ladder side).prices =
        PriceMap.record side prices (.restarted bids asks sequence) := by
  obtain ⟨hbs, hbo, hbp⟩ := book.bids.replace_spec bids
  obtain ⟨has, hao, hap⟩ := book.asks.replace_spec asks
  refine ⟨⟨fun side => ?_, fun side => ?_⟩, fun side prices => ?_⟩
  · cases side with
    | bid => exact hbs.trans (h.side_eq .bid)
    | ask => exact has.trans (h.side_eq .ask)
  · cases side with
    | bid => exact hbo
    | ask => exact hao
  · cases side with
    | bid => exact hbp
    | ask => exact hap

/-- The book is in order and its sides are those that the journal describes. -/
structure Records (log : List JournalEntry) (book : OrderBook) : Prop where
  ordered : book.Ordered
  prices : ∀ side, (book.ladder side).prices = PriceMap.ofJournal side log

lemma records_invariant : JournalInvariant Records where
  write := by
    intro log book batch h _
    obtain ⟨ho, hp⟩ := writeUpdates_spec h.ordered batch.updates
    refine ⟨⟨ho.side_eq, ho.levels⟩, fun side => ?_⟩
    rw [PriceMap.ofJournal_concat, ← h.prices side]
    exact hp side
  quiet := fun h _ _ _ _ => ⟨⟨h.ordered.side_eq, h.ordered.levels⟩, h.prices⟩

lemma records_restart {log : List JournalEntry} (h : Records log book) (bids asks : List Level)
    (sequence : Option Nat) :
    Records (log ++ [.restarted bids asks sequence]) (book.restart bids asks sequence) := by
  obtain ⟨ho, hp⟩ := restart_spec h.ordered bids asks sequence
  refine ⟨ho, fun side => ?_⟩
  rw [PriceMap.ofJournal_concat]
  exact hp side _

lemma records_new (symbol : String) (policy : SequencePolicy) (bufferLimit : Nat) :
    Records [] (new symbol policy bufferLimit) where
  ordered := by
    refine ⟨fun side => ?_, fun side => ?_⟩
    · cases side <;> rfl
    · cases side <;> exact Level.Ordered.nil
  prices := fun side => by cases side <;> rfl

lemma records_run (symbol : String) (policy : SequencePolicy) (bufferLimit : Nat)
    (operations : List BookOperation) :
    Records ((new symbol policy bufferLimit).journal operations)
      ((new symbol policy bufferLimit).run operations) :=
  records_invariant.run_of_restart (fun _ _ => records_restart)
    (records_new symbol policy bufferLimit) operations

/-- At every moment the sides of a book are the price maps that its journal describes, to look up
and as a whole. The whole view lists the levels of the two ladders from the best one on: what it
shows at a price is what the journal gives there, and nothing is left out. So the levels are seen in
the strict order of their prices and none of amount zero, and a view of limited depth is the
beginning of the whole view. -/
theorem run_sides_eq_journal (symbol : String) (policy : SequencePolicy) (bufferLimit : Nat)
    (operations : List BookOperation) :
    let start := new symbol policy bufferLimit
    let book := start.run operations
    let view := book.materialize none
    (∀ side, (book.ladder side).prices = PriceMap.ofJournal side (start.journal operations)) ∧
      (∀ side price, (book.ladder side).get? price =
        PriceMap.ofJournal side (start.journal operations) price.value) ∧
      (view.bids = book.bids.levels.reverse ∧ view.asks = book.asks.levels) ∧
      (∀ price amount, PriceMap.ofJournal .bid (start.journal operations) price = some amount ↔
        ∃ level ∈ view.bids, level.price.value = price ∧ level.amount = amount) ∧
      (∀ price amount, PriceMap.ofJournal .ask (start.journal operations) price = some amount ↔
        ∃ level ∈ view.asks, level.price.value = price ∧ level.amount = amount) ∧
      view.bids.Pairwise (fun a b => b.price.value < a.price.value) ∧
      view.asks.Pairwise (fun a b => a.price.value < b.price.value) ∧
      (∀ level ∈ view.bids ++ view.asks, level.amount.value ≠ 0) ∧
      ∀ depth, (book.materialize (some depth)).bids = view.bids.take depth ∧
        (book.materialize (some depth)).asks = view.asks.take depth := by
  intro start book view
  have h : Records (start.journal operations) book :=
    records_run symbol policy bufferLimit operations
  have hb : Level.Ordered book.bids.levels := h.ordered.levels .bid
  have ha : Level.Ordered book.asks.levels := h.ordered.levels .ask
  have hbid : book.bids.side = .bid := h.ordered.side_eq .bid
  have hask : book.asks.side = .ask := h.ordered.side_eq .ask
  refine ⟨h.prices, ?_, ⟨Ladder.bestFirst_bid hbid, Ladder.bestFirst_ask hask⟩, ?_, ?_, ?_, ?_, ?_,
    fun depth => ⟨rfl, rfl⟩⟩
  · intro side price
    rw [Ladder.get?_eq_prices, h.prices side]
  · intro price amount
    rw [← h.prices .bid]
    exact Ladder.prices_eq_some hb
  · intro price amount
    rw [← h.prices .ask]
    exact Ladder.prices_eq_some ha
  · exact Ladder.bestFirst_descending hb hbid
  · exact Ladder.bestFirst_ascending ha hask
  · intro level hm
    rcases List.mem_append.mp hm with hm | hm
    · exact hb.nonzero level (Ladder.mem_bestFirst.mp hm)
    · exact ha.nonzero level (Ladder.mem_bestFirst.mp hm)

end OrderBook

end MarketFeed
