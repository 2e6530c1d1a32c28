import MarketFeed.Feed.Store
import MarketFeed.Proofs.Book.Lone

/-!
# Isolated streams

The public trades of a symbol, the candles of a symbol and a timeframe, and the book of a symbol are
streams of a store. Each is what a cache or a book by itself makes of the operations on it, whatever
is done to the other streams in between.
-/

namespace MarketFeed

/-- What is done to the public streams of a store. -/
inductive StreamOperation where
  | trades (symbol : String) (arrived : List Trade)
  | candle (symbol timeframe : String) (arrived : Candle)
  | book (symbol : String) (operation : BookStore.Operation)

namespace StreamOperation

/-- The public trades that come for a symbol. -/
def tradesOf (symbol : String) : StreamOperation → List Trade
  | trades other arrived => if other = symbol then arrived else []
  | _ => []

def candlesOf (symbol timeframe : String) : StreamOperation → List Candle
  | candle other time arrived => if (other, time) = (symbol, timeframe) then [arrived] else []
  | _ => []

def bookOf (symbol : String) : StreamOperation → List BookStore.Operation
  | book other operation => if other = symbol then [operation] else []
  | _ => []

end StreamOperation

namespace FeedStore

open BookStore (Operation ShelfAnswer)

def after (store : FeedStore) : StreamOperation → FeedStore
  | .trades symbol arrived => store.appendTrades symbol arrived
  | .candle symbol timeframe arrived => store.appendCandle symbol timeframe arrived
  | .book symbol operation => { store with books := store.books.after symbol operation }

def run (store : FeedStore) (operations : List StreamOperation) : FeedStore :=
  operations.foldl after store

/-- What the callers of operations on books get, with the symbols of the books. -/
def bookAnswers (store : FeedStore) : List StreamOperation → List (String × ShelfAnswer)
  | [] => []
  | .book symbol operation :: rest =>
    (symbol, store.books.answer symbol operation) ::
      (store.after (.book symbol operation)).bookAnswers rest
  | operation :: rest => (store.after operation).bookAnswers rest

lemma tradeCache_after (store : FeedStore) (operation : StreamOperation) (symbol : String) :
    (store.after operation).tradeCache symbol =
      (operation.tradesOf symbol).foldl RecentCache.append (store.tradeCache symbol) := by
  cases operation with
  | trades other arrived =>
    rw [after, appendTrades, tradeCache, Table.get?_insert, StreamOperation.tradesOf]
    split_ifs with h
    · rw [Option.getD_some, h]
    · rfl
  | candle other timeframe arrived => rfl
  | book other operation => rfl

lemma candleCache_after (store : FeedStore) (operation : StreamOperation)
    (symbol timeframe : String) : (store.after operation).candleCache symbol timeframe =
      (operation.candlesOf symbol timeframe).foldl BucketCache.append
        (store.candleCache symbol timeframe) := by
  cases operation with
  | trades other arrived => rfl
  | candle other time arrived =>
    rw [after, appendCandle, candleCache, Table.get?_insert, StreamOperation.candlesOf]
    split_ifs with h
    · obtain ⟨rfl, rfl⟩ := Prod.mk.inj h
      rfl
    · rfl
  | book other operation => rfl

lemma lone_after (store : FeedStore) (operation : StreamOperation) (symbol : String) :
    (store.after operation).books.lone symbol =
      (store.books.lone symbol).run (operation.bookOf symbol) := by
  cases operation with
  | trades other arrived => rfl
  | candle other timeframe arrived => rfl
  | book other operation =>
    rw [StreamOperation.bookOf]
    split_ifs with h
    · obtain rfl := h
      exact store.books.lone_after other operation
    · exact BookStore.lone_after_of_ne h operation

/-- A part of the store that only some operations touch goes through these alone. -/
lemma view_run {α β : Type} (view : FeedStore → α) {own : StreamOperation → List β}
    {step : α → β → α} (h : ∀ store operation,
      view (after store operation) = (own operation).foldl step (view store))
    (store : FeedStore) (operations : List StreamOperation) :
    view (store.run operations) = (operations.flatMap own).foldl step (view store) := by
  induction operations generalizing store with
  | nil => rfl
  | cons operation rest ih =>
    rw [List.flatMap_cons, List.foldl_append, ← h]
    exact ih (store.after operation)

/-- What is asked about the book of a symbol is answered as it would be without the other
streams. -/
lemma bookAnswers_of_symbol (store : FeedStore) (operations : List StreamOperation)
    (symbol : String) :
    ((store.bookAnswers operations).filter (·.1 = symbol)).map (·.2) =
      (store.books.lone symbol).answers (operations.flatMap (·.bookOf symbol)) := by
  induction operations generalizing store with
  | nil => rfl
  | cons operation rest ih =>
    have hnext := store.lone_after operation symbol
    cases operation with
    | trades other arrived => exact ih _
    | candle other timeframe arrived => exact ih _
    | book other operation =>
      rw [StreamOperation.bookOf] at hnext
      rw [bookAnswers, List.filter_cons, List.flatMap_cons, StreamOperation.bookOf]
      by_cases he : other = symbol
      · subst he
        rw [if_pos rfl] at hnext ⊢
        rw [if_pos (by simp), List.map_cons, ih, hnext, BookStore.answer_eq_lone]
        rfl
      · rw [if_neg he] at hnext ⊢
        rw [if_neg (by simpa using he), ih, hnext]
        rfl

/-- Every stream of a store shows what a cache or a book by itself would, after the operations on it
in their order: the newest trades of a symbol, the newest candles of a symbol and a timeframe, and
the book of a symbol with all its answers. After its last insertion a book is one of that policy;
after its last removal, or if it was never inserted, there is one of the usual policy as soon as
something is done to it other than giving it up. -/
theorem streams_isolated (limits : CacheLimits) (policy : SequencePolicy)
    (operations : List StreamOperation) :
    let store := (new limits policy).run operations
    (∀ symbol limit, store.recentTrades symbol limit = Query.select ⟨none, none, limit⟩
      ((operations.flatMap (·.tradesOf symbol)).foldl RecentCache.append
        (.new limits.trades)).records) ∧
    (∀ symbol timeframe limit, store.recentCandles symbol timeframe limit =
      Query.select ⟨none, none, limit⟩
        ((operations.flatMap (·.candlesOf symbol timeframe)).foldl BucketCache.append
          (.new limits.candles)).records) ∧
    ∀ symbol,
      let own := operations.flatMap (·.bookOf symbol)
      let lone := LoneBook.new symbol policy limits.bookBuffer
      (store.books.book? symbol = (lone.run own).book? ∧
        (∀ depth, store.book? symbol depth = (lone.run own).book?.map (·.materialize depth)) ∧
        (((new limits policy).bookAnswers operations).filter (·.1 = symbol)).map (·.2) =
          lone.answers own) ∧
      ∀ since : List Operation, (∀ operation ∈ since, operation.onBook?.isSome = true) →
        (∀ before policy, own = before ++ .insert policy :: since →
          store.books.book? symbol = some ((OrderBook.new symbol policy limits.bookBuffer).run
            (since.filterMap Operation.onBook?))) ∧
        ((own = since ∨ ∃ before, own = before ++ .remove :: since) →
          store.books.book? symbol = if since.any Operation.creates then
            some ((OrderBook.new symbol policy limits.bookBuffer).run (Operation.begun since))
          else none) := by
  intro store
  refine ⟨fun symbol limit => ?_, fun symbol timeframe limit => ?_, fun symbol => ?_⟩
  · have hcache : store.tradeCache symbol = _ :=
      view_run (·.tradeCache symbol) (fun store operation => store.tradeCache_after operation symbol)
        _ operations
    rw [recentTrades, hcache]
    rfl
  · have hcache : store.candleCache symbol timeframe = _ :=
      view_run (·.candleCache symbol timeframe)
        (fun store operation => store.candleCache_after operation symbol timeframe) _ operations
    rw [recentCandles, hcache]
    rfl
  · intro own lone
    have hlone : store.books.lone symbol = lone.run own :=
      view_run (·.books.lone symbol) (fun store operation => store.lone_after operation symbol) _
        operations
    have hbook : store.books.book? symbol = (lone.run own).book? :=
      congrArg LoneBook.book? hlone
    have hshown : ∀ depth, store.book? symbol depth =
        (lone.run own).book?.map (·.materialize depth) := fun depth => by
      rw [book?, BookStore.materialize, hbook]
    refine ⟨⟨hbook, hshown, bookAnswers_of_symbol _ operations symbol⟩, fun since hs => ⟨?_, ?_⟩⟩
    · intro before policy' he
      rw [hbook, he]
      exact lone.book?_run_insert before policy' hs
    · rintro (he | ⟨before, he⟩)
      · rw [hbook, he]
        exact LoneBook.book?_run_of_none rfl hs
      · rw [hbook, he]
        exact lone.book?_run_remove before hs

/-- One book is inserted, another one is removed and begins again, and a trade comes in between. -/
theorem interleaved_streams_isolated :
    let delta : Operation := .delta .bid .two .two (some 6)
    let operations : List StreamOperation :=
      [.book "BTC/USDT" (.insert .strict), .book "ETH/USDT" delta, .trades "BTC/USDT" [.blank],
        .book "BTC/USDT" (.snapshot [] [] (some 5)), .book "ETH/USDT" .remove,
        .book "ETH/USDT" .invalidate, .book "BTC/USDT" delta, .book "ETH/USDT" delta]
    let store := (new .standard .monotonic).run operations
    store.books.book? "BTC/USDT" = some ((OrderBook.new "BTC/USDT" .strict 100).run
      [.snapshot [] [] (some 5), .delta .bid .two .two (some 6)]) ∧
    store.books.book? "ETH/USDT" = some ((OrderBook.new "ETH/USDT" .monotonic 100).run
      [.delta .bid .two .two (some 6)]) ∧
    (store.recentTrades "BTC/USDT" none).length = 1 ∧ store.recentTrades "ETH/USDT" none = [] := by
  intro delta operations store
  obtain ⟨htrades, -, hbooks⟩ := streams_isolated .standard .monotonic operations
  obtain ⟨-, hinserted⟩ := hbooks "BTC/USDT"
  obtain ⟨-, hremoved⟩ := hbooks "ETH/USDT"
  refine ⟨?_, ?_, ?_, ?_⟩
  · exact (hinserted [.snapshot [] [] (some 5), delta] (by decide)).1 [] .strict rfl
  · exact (hremoved [.invalidate, delta] (by decide)).2 (.inr ⟨[delta], rfl⟩)
  · rw [htrades]
    rfl
  · exact htrades "ETH/USDT" none

end FeedStore

end MarketFeed
