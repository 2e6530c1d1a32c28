import MarketFeed.Book.Store
import MarketFeed.Proofs.Book.OutOfSync

/-!
# The books of a store

An operation on the book of one symbol leaves those of the others alone, so that a book in a store
goes through a run of the operations on it. A book that is out of sync refuses every batch that
comes through the store, and the store stays as it is.
-/

namespace MarketFeed

namespace BookStore

/-- What is done to the book of a symbol. -/
inductive Operation where
  | insert (policy : SequencePolicy)
  | snapshot (bids asks : List Level) (sequence : Option Nat)
  | batch (changes : DeltaBatch)
  | delta (side : BookSide) (price size : Decimal) (sequence : Option Nat)
  | checksum (expected : Int) (format : ChecksumFormat)
  | invalidate
  | remove

namespace Operation

/-- What the operation does to the book that there is, unless it puts another one in its place or
takes it away. -/
def onBook? : Operation → Option BookOperation
  | insert _ | remove => none
  | snapshot bids asks sequence => some (.snapshot bids asks sequence)
  | batch changes => some (.batch changes)
  | delta side price size sequence => some (.delta side price size sequence)
  | checksum expected format => some (.checksum expected format)
  | invalidate => some .invalidate

/-- The book starts over, another one takes its place, or it is gone. -/
def endsBook (operation : Operation) : Bool :=
  match operation.onBook? with
  | some change => change.isSnapshot
  | none => true

lemma exists_of_endsBook_eq_false {operation : Operation} (h : operation.endsBook = false) :
    ∃ change, operation.onBook? = some change ∧ change.isSnapshot = false := by
  unfold endsBook at h
  cases hc : operation.onBook? with
  | none => exact absurd (hc ▸ h) (by simp)
  | some change => exact ⟨change, rfl, by rwa [hc] at h⟩

end Operation

def after (store : BookStore) (symbol : String) : Operation → BookStore
  | .insert policy => store.insert symbol policy
  | .snapshot bids asks sequence => (store.applySnapshot symbol bids asks sequence).2
  | .batch changes => (store.applyBatch symbol changes).2
  | .delta side price size sequence => (store.applyDelta symbol side price size sequence).2
  | .checksum expected format => (store.verifyChecksum symbol expected format).2
  | .invalidate => (store.invalidate symbol).2
  | .remove => (store.remove symbol).2

def run (store : BookStore) (operations : List (String × Operation)) : BookStore :=
  operations.foldl (fun store (symbol, operation) => store.after symbol operation) store

def changesOf (symbol : String) (operations : List (String × Operation)) : List BookOperation :=
  operations.filterMap fun (other, operation) =>
    if other = symbol then operation.onBook? else none

variable {store : BookStore} {symbol other : String} {book lost : OrderBook}
  {operation : Operation} {operations : List (String × Operation)}

lemma book?_put (store : BookStore) (symbol other : String) (book : OrderBook) :
    (store.put symbol book).book? other =
      if symbol = other then some book else store.book? other :=
  Table.get?_insert store.books symbol other book

lemma put_eq_self (h : store.book? symbol = some book) : store.put symbol book = store := by
  obtain ⟨front, back, hsplit, hput⟩ := Table.exists_of_find?_eq_some h
  have hentries : Table.put symbol book store.books.entries = store.books.entries :=
    (hput book).trans hsplit.symm
  unfold put Table.insert
  rw [hentries]

lemma onBook_of_book? {α : Type} (h : store.book? symbol = some book)
    (change : OrderBook → α × OrderBook) :
    store.onBook symbol change = ((change book).1, store.put symbol (change book).2) := by
  rw [onBook, bookOrNew, h, Option.getD_some]

lemma book?_onBook {α : Type} (h : store.book? symbol = some book)
    (change : OrderBook → α × OrderBook) :
    (store.onBook symbol change).2.book? symbol = some (change book).2 := by
  rw [onBook_of_book? h, book?_put, if_pos rfl]

lemma book?_onBook_of_ne {α : Type} (hn : symbol ≠ other) (change : OrderBook → α × OrderBook) :
    (store.onBook symbol change).2.book? other = store.book? other := by
  rw [onBook, book?_put, if_neg hn]

lemma book?_invalidate (store : BookStore) (symbol other : String) :
    (store.invalidate symbol).2.book? other =
      if symbol = other then (store.book? other).map OrderBook.invalidate
      else store.book? other := by
  unfold invalidate
  cases hb : store.book? symbol with
  | some book =>
    dsimp only
    rw [book?_put]
    split
    · rename_i he
      rw [← he, hb, Option.map_some]
    · rfl
  | none =>
    dsimp only
    split
    · rename_i he
      rw [← he, hb, Option.map_none]
    · rfl

lemma book?_after_of_ne (hn : symbol ≠ other) (operation : Operation) :
    (store.after symbol operation).book? other = store.book? other := by
  cases operation with
  | insert policy => exact (book?_put ..).trans (if_neg hn)
  | snapshot bids asks sequence => exact book?_onBook_of_ne hn _
  | batch changes => exact book?_onBook_of_ne hn _
  | delta side price size sequence => exact book?_onBook_of_ne hn _
  | checksum expected format => exact book?_onBook_of_ne hn _
  | invalidate => exact (book?_invalidate ..).trans (if_neg hn)
  | remove => exact (Table.get?_erase ..).trans (if_neg hn)

lemma book?_after (h : store.book? symbol = some book) {change : BookOperation}
    (hc : operation.onBook? = some change) :
    (store.after symbol operation).book? symbol = some (book.after change) := by
  cases operation with
  | insert policy => exact absurd hc (by simp [Operation.onBook?])
  | remove => exact absurd hc (by simp [Operation.onBook?])
  | invalidate =>
    obtain rfl := Option.some.inj hc
    rw [after, book?_invalidate, if_pos rfl, h]
    rfl
  | snapshot bids asks sequence =>
    obtain rfl := Option.some.inj hc
    exact book?_onBook h _
  | batch changes =>
    obtain rfl := Option.some.inj hc
    exact book?_onBook h _
  | delta side price size sequence =>
    obtain rfl := Option.some.inj hc
    exact book?_onBook h _
  | checksum expected format =>
    obtain rfl := Option.some.inj hc
    exact book?_onBook h _

/-- As long as no other book takes its place, a book goes through what is done to it. -/
lemma book?_run (h : store.book? symbol = some book)
    (hs : ∀ entry ∈ operations, entry.1 = symbol → entry.2.onBook?.isSome = true) :
    (store.run operations).book? symbol = some (book.run (changesOf symbol operations)) := by
  induction operations generalizing store book with
  | nil => exact h
  | cons entry rest ih =>
    obtain ⟨other, operation⟩ := entry
    rw [List.forall_mem_cons] at hs
    change ((store.after other operation).run rest).book? symbol = _
    unfold changesOf
    rw [List.filterMap_cons]
    dsimp only
    by_cases he : other = symbol
    · subst he
      obtain ⟨change, hchange⟩ := Option.isSome_iff_exists.mp (hs.1 rfl)
      rw [if_pos rfl, hchange]
      exact ih (book?_after h hchange) hs.2
    · rw [if_neg he]
      exact ih ((book?_after_of_ne he operation).trans h) hs.2

/-! A book that is out of sync. -/

lemma applyBatch_of_needsResync (h : store.book? symbol = some book)
    (hr : book.needsResync = true) (batch : DeltaBatch) :
    store.applyBatch symbol batch = (.error (book.syncFault .awaitingSnapshot), store) := by
  rw [applyBatch, onBook_of_book? h, OrderBook.applyBatch_of_needsResync hr, put_eq_self h]

/-- The book of a symbol is as it was when it was lost, it holds nothing back, and it refuses every
batch without a change. -/
structure Refuses (store : BookStore) (symbol : String) (lost : OrderBook) : Prop where
  book : ∃ book, store.book? symbol = some book ∧ OrderBook.Frozen lost book ∧ book.buffered = []
  batch : ∀ batch, store.applyBatch symbol batch =
    (.error (lost.syncFault .awaitingSnapshot), store)
  delta : ∀ side price size sequence, store.applyDelta symbol side price size sequence =
    (.error (lost.syncFault .awaitingSnapshot), store)

/-- A book that was given up refuses every batch, whatever happens to the books of the store, until
it starts over or makes way. -/
lemma refuses_run (h : store.book? symbol = some lost) (hr : lost.needsResync = true)
    (hb : lost.buffered = [])
    (hs : ∀ entry ∈ operations, entry.1 = symbol → entry.2.endsBook = false) :
    (store.run operations).Refuses symbol lost := by
  have hkept : ∀ entry ∈ operations, entry.1 = symbol → entry.2.onBook?.isSome = true := by
    intro entry hm he
    obtain ⟨change, hchange, -⟩ := Operation.exists_of_endsBook_eq_false (hs entry hm he)
    rw [hchange, Option.isSome_some]
  have hquiet : ∀ change ∈ changesOf symbol operations, change.isSnapshot = false := by
    intro change hm
    obtain ⟨⟨other, operation⟩, hentry, hchange⟩ := List.mem_filterMap.mp hm
    dsimp only at hchange
    split at hchange
    · rename_i he
      obtain ⟨own, hown, hsnapshot⟩ :=
        Operation.exists_of_endsBook_eq_false (hs _ hentry he)
      obtain rfl := Option.some.inj (hown.symm.trans hchange)
      exact hsnapshot
    · exact absurd hchange (by simp)
  have hbook := book?_run h hkept
  obtain ⟨hfrozen, hbuffered⟩ := OrderBook.frozen_run ⟨hr, rfl, rfl, rfl, rfl⟩ hquiet
  have hfault : ∀ reason, (lost.run (changesOf symbol operations)).syncFault reason =
      lost.syncFault reason := fun reason => by
    rw [OrderBook.syncFault, hfrozen.symbol, OrderBook.syncFault]
  have hbatch : ∀ batch, (store.run operations).applyBatch symbol batch =
      (.error (lost.syncFault .awaitingSnapshot), store.run operations) := fun batch => by
    rw [applyBatch_of_needsResync hbook hfrozen.needsResync, hfault]
  refine ⟨⟨_, hbook, hfrozen, ?_⟩, hbatch, fun side price size sequence => ?_⟩
  · rw [hbuffered, hb, ite_self]
  · exact hbatch (.single side price size sequence)

end BookStore

end MarketFeed
