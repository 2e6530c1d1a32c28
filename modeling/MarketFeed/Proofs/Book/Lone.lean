import MarketFeed.Proofs.Book.Shelf

/-!
# A book by itself

The book of one symbol, without the store that it stands in: it begins when it is inserted or when
something is first done to it, and it may be removed and begin again. In a store it goes through the
operations on its symbol as if there were no others.
-/

namespace MarketFeed

namespace BookStore

/-- The operation finds a book or starts one. -/
def Operation.creates : Operation → Bool
  | invalidate | remove => false
  | _ => true

/-- What was done to a book that began with the first operation that creates one. -/
def Operation.begun (operations : List Operation) : List BookOperation :=
  (operations.dropWhile (!·.creates)).filterMap onBook?

/-- What the caller of an operation gets. -/
inductive ShelfAnswer where
  | inserted
  | changed (answer : BookAnswer)
  | givenUp (found : Bool)
  | removed (book : Option OrderBook)

def answer (store : BookStore) (symbol : String) : Operation → ShelfAnswer
  | .insert _ => .inserted
  | .snapshot bids asks sequence =>
    .changed (.replayed (store.applySnapshot symbol bids asks sequence).1)
  | .batch changes => .changed (.taken (store.applyBatch symbol changes).1)
  | .delta side price size sequence =>
    .changed (.taken (store.applyDelta symbol side price size sequence).1)
  | .checksum expected format =>
    .changed (.checked (store.verifyChecksum symbol expected format).1)
  | .invalidate => .givenUp (store.invalidate symbol).1
  | .remove => .removed (store.remove symbol).1

end BookStore

/-- The book of a symbol while there is one. It follows the usual policy unless it is inserted with
another one. -/
structure LoneBook where
  symbol : String
  usual : SequencePolicy
  bufferLimit : Nat
  book? : Option OrderBook

namespace LoneBook

open BookStore (Operation ShelfAnswer)

def new (symbol : String) (usual : SequencePolicy) (bufferLimit : Nat) : LoneBook :=
  ⟨symbol, usual, bufferLimit, none⟩

/-- The book as it begins. -/
def fresh (lone : LoneBook) (policy : SequencePolicy) : OrderBook :=
  .new lone.symbol policy lone.bufferLimit

/-- Does something to the book, which begins with it if need be. -/
def change (lone : LoneBook) (operation : BookOperation) : ShelfAnswer × LoneBook :=
  let book := lone.book?.getD (lone.fresh lone.usual)
  (.changed (book.answer operation), { lone with book? := some (book.after operation) })

def perform (lone : LoneBook) : Operation → ShelfAnswer × LoneBook
  | .insert policy => (.inserted, { lone with book? := some (lone.fresh policy) })
  | .snapshot bids asks sequence => lone.change (.snapshot bids asks sequence)
  | .batch changes => lone.change (.batch changes)
  | .delta side price size sequence => lone.change (.delta side price size sequence)
  | .checksum expected format => lone.change (.checksum expected format)
  | .invalidate =>
    (.givenUp lone.book?.isSome, { lone with book? := lone.book?.map OrderBook.invalidate })
  | .remove => (.removed lone.book?, { lone with book? := none })

def answer (lone : LoneBook) (operation : Operation) : ShelfAnswer := (lone.perform operation).1

def after (lone : LoneBook) (operation : Operation) : LoneBook := (lone.perform operation).2

def run (lone : LoneBook) (operations : List Operation) : LoneBook := operations.foldl after lone

def answers (lone : LoneBook) : List Operation → List ShelfAnswer
  | [] => []
  | operation :: rest => lone.answer operation :: (lone.after operation).answers rest

variable {lone : LoneBook} {book : OrderBook} {operation : Operation} {operations : List Operation}
  {change : BookOperation}

/-! The life of the book, from its beginning to where another one takes its place. -/

lemma after_frame (lone : LoneBook) (operation : Operation) : ∃ book?,
    lone.after operation = { lone with book? } := by
  cases operation <;> exact ⟨_, rfl⟩

lemma run_frame (lone : LoneBook) (operations : List Operation) : ∃ book?,
    lone.run operations = { lone with book? } := by
  induction operations generalizing lone with
  | nil => exact ⟨lone.book?, rfl⟩
  | cons operation rest ih =>
    obtain ⟨next, hnext⟩ := lone.after_frame operation
    obtain ⟨book?, hrun⟩ := ih (lone.after operation)
    refine ⟨book?, ?_⟩
    rw [hnext] at hrun
    rw [run, List.foldl_cons, hnext]
    exact hrun

/-- There is a book after every operation on one, and after all that create one. -/
lemma after_of_onBook? (hc : operation.onBook? = some change)
    (hb : lone.book?.isSome = true ∨ operation.creates = true) : lone.after operation =
      { lone with book? := some ((lone.book?.getD (lone.fresh lone.usual)).after change) } := by
  cases operation with
  | insert policy => exact absurd hc (by simp [Operation.onBook?])
  | remove => exact absurd hc (by simp [Operation.onBook?])
  | invalidate =>
    obtain rfl := Option.some.inj hc
    rcases hb with hb | hb
    · obtain ⟨book, hbook⟩ := Option.isSome_iff_exists.mp hb
      rw [after, perform, hbook]
      rfl
    · exact absurd hb (by simp [Operation.creates])
  | snapshot bids asks sequence =>
    obtain rfl := Option.some.inj hc
    rfl
  | batch changes =>
    obtain rfl := Option.some.inj hc
    rfl
  | delta side price size sequence =>
    obtain rfl := Option.some.inj hc
    rfl
  | checksum expected format =>
    obtain rfl := Option.some.inj hc
    rfl

/-- As long as no other book takes its place, a book goes through what is done to it. -/
lemma book?_run_of_book? (hb : lone.book? = some book)
    (hs : ∀ operation ∈ operations, operation.onBook?.isSome = true) :
    (lone.run operations).book? = some (book.run (operations.filterMap Operation.onBook?)) := by
  induction operations generalizing lone book with
  | nil => exact hb
  | cons operation rest ih =>
    rw [List.forall_mem_cons] at hs
    obtain ⟨change, hchange⟩ := Option.isSome_iff_exists.mp hs.1
    rw [List.filterMap_cons, hchange]
    refine ih ?_ hs.2
    rw [after_of_onBook? hchange (.inl (by rw [hb]; rfl)), hb]
    rfl

lemma run_append (lone : LoneBook) (operations more : List Operation) :
    lone.run (operations ++ more) = (lone.run operations).run more :=
  List.foldl_append

lemma run_cons (lone : LoneBook) (operation : Operation) (operations : List Operation) :
    lone.run (operation :: operations) = (lone.after operation).run operations := rfl

lemma book?_run_insert (lone : LoneBook) (before : List Operation) (policy : SequencePolicy)
    (hs : ∀ operation ∈ operations, operation.onBook?.isSome = true) :
    (lone.run (before ++ .insert policy :: operations)).book? =
      some ((lone.fresh policy).run (operations.filterMap Operation.onBook?)) := by
  obtain ⟨book?, hbefore⟩ := lone.run_frame before
  rw [run_append, run_cons, hbefore]
  exact book?_run_of_book? rfl hs

/-- Without a book, giving it up does nothing, and what else is done to it starts it. -/
lemma book?_run_of_none (hb : lone.book? = none)
    (hs : ∀ operation ∈ operations, operation.onBook?.isSome = true) :
    (lone.run operations).book? = if operations.any Operation.creates then
      some ((lone.fresh lone.usual).run (Operation.begun operations)) else none := by
  induction operations with
  | nil => exact hb
  | cons operation rest ih =>
    rw [List.forall_mem_cons] at hs
    obtain ⟨change, hchange⟩ := Option.isSome_iff_exists.mp hs.1
    rw [run_cons, List.any_cons, Operation.begun, List.dropWhile_cons]
    cases hcreates : operation.creates with
    | false =>
      have hi : operation = .invalidate := by
        cases operation with
        | invalidate => rfl
        | remove => exact absurd hs.1 (by simp [Operation.onBook?])
        | _ => exact absurd hcreates (by simp [Operation.creates])
      have hsame : lone.after operation = lone := by
        rw [hi, after, perform, hb, Option.map_none, ← hb]
      rw [hsame]
      exact ih hs.2
    | true =>
      have hbook : (lone.after operation).book? =
          some ((lone.fresh lone.usual).after change) := by
        rw [after_of_onBook? hchange (.inr hcreates), hb, Option.getD_none]
      rw [book?_run_of_book? hbook hs.2]
      simp [hchange]

lemma book?_run_remove (lone : LoneBook) (before : List Operation)
    (hs : ∀ operation ∈ operations, operation.onBook?.isSome = true) :
    (lone.run (before ++ .remove :: operations)).book? = if operations.any Operation.creates then
      some ((lone.fresh lone.usual).run (Operation.begun operations)) else none := by
  obtain ⟨book?, hbefore⟩ := lone.run_frame before
  rw [run_append, run_cons, hbefore]
  exact book?_run_of_none rfl hs

end LoneBook

namespace BookStore

/-- The book of a symbol, apart from the others. -/
def lone (store : BookStore) (symbol : String) : LoneBook :=
  ⟨symbol, store.policy, store.bufferLimit, store.book? symbol⟩

variable {store : BookStore} {symbol other : String}

lemma after_settings (store : BookStore) (symbol : String) (operation : Operation) :
    (store.after symbol operation).policy = store.policy ∧
      (store.after symbol operation).bufferLimit = store.bufferLimit := by
  cases operation with
  | invalidate =>
    rw [after, invalidate]
    split <;> exact ⟨rfl, rfl⟩
  | _ => exact ⟨rfl, rfl⟩

lemma lone_after_of_ne (hn : symbol ≠ other) (operation : Operation) :
    (store.after symbol operation).lone other = store.lone other := by
  obtain ⟨hpolicy, hlimit⟩ := store.after_settings symbol operation
  rw [lone, book?_after_of_ne hn, hpolicy, hlimit, lone]

lemma lone_onBook (store : BookStore) (symbol : String) (operation : BookOperation) :
    (store.put symbol ((store.bookOrNew symbol).after operation)).lone symbol =
      ((store.lone symbol).change operation).2 := by
  rw [lone, book?_put, if_pos rfl]
  rfl

/-- The book of a symbol goes through an operation on it as it would by itself. -/
lemma lone_after (store : BookStore) (symbol : String) (operation : Operation) :
    (store.after symbol operation).lone symbol = (store.lone symbol).after operation := by
  cases operation with
  | insert policy =>
    rw [after, insert, lone, book?_put, if_pos rfl]
    rfl
  | snapshot bids asks sequence => exact store.lone_onBook symbol (.snapshot bids asks sequence)
  | batch changes => exact store.lone_onBook symbol (.batch changes)
  | delta side price size sequence =>
    exact store.lone_onBook symbol (.delta side price size sequence)
  | checksum expected format => exact store.lone_onBook symbol (.checksum expected format)
  | invalidate =>
    obtain ⟨hpolicy, hlimit⟩ := store.after_settings symbol .invalidate
    rw [lone, hpolicy, hlimit, after, book?_invalidate, if_pos rfl]
    rfl
  | remove =>
    have hgone : (store.after symbol .remove).book? symbol = none :=
      (Table.get?_erase ..).trans (if_pos rfl)
    rw [lone, hgone]
    rfl

lemma answer_eq_lone (store : BookStore) (symbol : String) (operation : Operation) :
    store.answer symbol operation = (store.lone symbol).answer operation := by
  cases operation with
  | invalidate =>
    rw [answer, invalidate, LoneBook.answer, LoneBook.perform, lone]
    cases store.book? symbol <;> rfl
  | _ => rfl

end BookStore

end MarketFeed
