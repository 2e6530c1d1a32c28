import MarketFeed.Proofs.Book.Run
import Mathlib.Tactic.SplitIfs

/-!
# Books out of sync

A call that does not apply a batch leaves the contents of a book alone. A call that fails, and
giving the book up, puts it out of sync; from then on it refuses every batch and keeps its contents
until the next snapshot.
-/

namespace MarketFeed.OrderBook

variable {book lost : OrderBook} {batch : DeltaBatch}

structure SameContents (after book : OrderBook) : Prop where
  bids : after.bids = book.bids
  asks : after.asks = book.asks
  nonce : after.nonce = book.nonce
  timestamp : after.timestamp = book.timestamp

/-- The operation fails, or it gives the book up. -/
def LosesSync (book : OrderBook) (operation : BookOperation) : Prop :=
  operation = .invalidate ∨ (book.answer operation).isFailure = true

lemma applyBatch_sameContents (h : (book.applyBatch batch).1 ≠ .ok .applied) :
    SameContents (book.applyBatch batch).2 book := by
  rcases book.applyBatch_cases batch with
    ⟨-, ha⟩ | ⟨-, ha⟩ | ⟨-, ha⟩ | ⟨-, ha⟩ | ⟨reason, -, ha⟩
  · rw [ha]
    exact ⟨rfl, rfl, rfl, rfl⟩
  · rw [ha]
    exact ⟨rfl, rfl, rfl, rfl⟩
  · rw [ha] at h
    exact absurd rfl h
  · rw [ha]
    exact ⟨rfl, rfl, rfl, rfl⟩
  · rw [ha]
    exact ⟨rfl, rfl, rfl, rfl⟩

lemma verifyChecksum_sameContents (book : OrderBook) (expected : Int) (format : ChecksumFormat) :
    SameContents (book.verifyChecksum expected format).2 book := by
  rw [verifyChecksum]
  split_ifs
  · exact ⟨rfl, rfl, rfl, rfl⟩
  · exact ⟨rfl, rfl, rfl, rfl⟩

/-! Every failure puts the book out of sync. -/

lemma applyBatch_error {fault : Fault} (h : (book.applyBatch batch).1 = .error fault) :
    (book.applyBatch batch).2.needsResync = true := by
  rcases book.applyBatch_cases batch with
    ⟨hr, ha⟩ | ⟨-, ha⟩ | ⟨-, ha⟩ | ⟨-, ha⟩ | ⟨reason, -, ha⟩
  · rw [ha]
    exact hr
  · simp [ha] at h
  · simp [ha] at h
  · simp [ha] at h
  · rw [ha]

lemma verifyChecksum_error {expected : Int} {format : ChecksumFormat} {fault : Fault}
    (h : (book.verifyChecksum expected format).1 = .error fault) :
    (book.verifyChecksum expected format).2.needsResync = true := by
  rw [verifyChecksum] at h ⊢
  split_ifs at h ⊢ with hc
  rfl

lemma replay_standing (book : OrderBook) (count : Nat) (batches : List DeltaBatch) :
    (book.replay count batches).2.hasSnapshot = book.hasSnapshot ∧
      (book.replay count batches).2.needsResync =
        (book.needsResync || !(book.replay count batches).1.isOk) := by
  induction batches generalizing book count with
  | nil => exact ⟨rfl, (Bool.or_false _).symm⟩
  | cons batch rest ih =>
    cases hj : judge book.policy book.nonce batch with
    | due =>
      have hw := ih (book.write batch) (count + 1)
      rwa [write_hasSnapshot, write_needsResync, ← replay_cons_due hj] at hw
    | stale =>
      rw [replay_cons_stale hj]
      exact ih book count
    | refused reason =>
      rw [replay_cons_refused hj]
      exact ⟨rfl, (Bool.or_true _).symm⟩

/-- After a snapshot the book is in sync unless the replay fails. -/
lemma applySnapshot_standing (book : OrderBook) (bids asks : List Level) (sequence : Option Nat) :
    (book.applySnapshot bids asks sequence).2.hasSnapshot = true ∧
      (book.applySnapshot bids asks sequence).2.needsResync =
        !(book.applySnapshot bids asks sequence).1.isOk := by
  by_cases hu : book.policy = .unsequenced
  · rw [applySnapshot_of_unsequenced hu]
    exact ⟨rfl, rfl⟩
  · rw [applySnapshot_of_sequenced hu]
    exact replay_standing (book.restart bids asks sequence) 0 book.buffered

lemma needsResync_of_losesSync {operation : BookOperation} (h : book.LosesSync operation) :
    (book.after operation).needsResync = true := by
  rcases h with rfl | h
  · rfl
  cases operation with
  | snapshot bids asks sequence =>
    cases hr : (book.applySnapshot bids asks sequence).1 with
    | ok count => simp [answer, perform, hr, BookAnswer.isFailure] at h
    | error fault =>
      change (book.applySnapshot bids asks sequence).2.needsResync = true
      rw [(book.applySnapshot_standing bids asks sequence).2, hr]
      rfl
  | batch batch =>
    cases hr : (book.applyBatch batch).1 with
    | ok outcome => simp [answer, perform, hr, BookAnswer.isFailure] at h
    | error fault => exact applyBatch_error hr
  | delta side price size sequence =>
    cases hr : (book.applyBatch (.single side price size sequence)).1 with
    | ok outcome => simp [answer, perform, applyDelta, hr, BookAnswer.isFailure] at h
    | error fault => exact applyBatch_error hr
  | checksum expected format =>
    cases hr : (book.verifyChecksum expected format).1 with
    | ok result => simp [answer, perform, hr, BookAnswer.isFailure] at h
    | error fault => exact verifyChecksum_error hr
  | invalidate => rfl
  | timestamp timestamp => simp [answer, perform, BookAnswer.isFailure] at h

lemma isSynced_of_needsResync (h : book.needsResync = true) : book.isSynced = false := by
  rw [isSynced, h, Bool.not_true, Bool.and_false]

/-! A book out of sync stays as it is. -/

/-- The book still is as it was when it was lost, but for its time and what it holds back. -/
structure Frozen (lost book : OrderBook) : Prop where
  needsResync : book.needsResync = true
  symbol : book.symbol = lost.symbol
  bids : book.bids = lost.bids
  asks : book.asks = lost.asks
  nonce : book.nonce = lost.nonce

lemma frozen_after (h : Frozen lost book) {operation : BookOperation}
    (hs : operation.isSnapshot = false) : Frozen lost (book.after operation) ∧
      (book.after operation).buffered =
        if operation = .invalidate then [] else book.buffered := by
  cases operation with
  | snapshot bids asks sequence => exact absurd hs (by simp [BookOperation.isSnapshot])
  | batch batch =>
    have ha : book.after (.batch batch) = book :=
      congrArg Prod.snd (applyBatch_of_needsResync h.needsResync)
    rw [ha]
    exact ⟨h, rfl⟩
  | delta side price size sequence =>
    have ha : book.after (.delta side price size sequence) = book :=
      congrArg Prod.snd (applyBatch_of_needsResync h.needsResync)
    rw [ha]
    exact ⟨h, rfl⟩
  | checksum expected format =>
    change Frozen lost (book.verifyChecksum expected format).2 ∧
      (book.verifyChecksum expected format).2.buffered = book.buffered
    rw [verifyChecksum]
    split_ifs
    · exact ⟨h, rfl⟩
    · exact ⟨⟨rfl, h.symbol, h.bids, h.asks, h.nonce⟩, rfl⟩
  | invalidate => exact ⟨⟨rfl, h.symbol, h.bids, h.asks, h.nonce⟩, rfl⟩
  | timestamp timestamp => exact ⟨⟨h.needsResync, h.symbol, h.bids, h.asks, h.nonce⟩, rfl⟩

lemma frozen_run (h : Frozen lost book) {operations : List BookOperation}
    (hs : ∀ operation ∈ operations, operation.isSnapshot = false) :
    Frozen lost (book.run operations) ∧
      (book.run operations).buffered =
        if .invalidate ∈ operations then [] else book.buffered := by
  induction operations generalizing book with
  | nil => exact ⟨h, rfl⟩
  | cons operation rest ih =>
    rw [List.forall_mem_cons] at hs
    obtain ⟨ha, hb⟩ := frozen_after h hs.1
    obtain ⟨hr, hq⟩ := ih ha hs.2
    refine ⟨hr, ?_⟩
    rw [run_cons, hq, hb]
    by_cases hi : .invalidate ∈ rest <;> by_cases ho : operation = .invalidate <;>
      simp [hi, ho, eq_comm]

lemma symbol_invariant (symbol : String) :
    JournalInvariant fun _ book => book.symbol = symbol where
  write := fun h _ => (write_symbol _ _).trans h
  quiet := fun h _ _ _ _ => h

lemma after_symbol (book : OrderBook) (operation : BookOperation) :
    (book.after operation).symbol = book.symbol := by
  exact @JournalInvariant.run_of_restart _ [] book (symbol_invariant book.symbol)
    (fun _ _ h _ _ _ => h) rfl [operation]

/-- A batch that is not applied leaves the contents alone, and so does a checksum. Once the book is
lost, it is out of sync: it takes no batch and keeps its levels, its number and, unless it is given
up, what it holds back, however the run goes on without a snapshot. A snapshot that succeeds brings
it back. -/
theorem lost_book_is_frozen (book : OrderBook) :
    (∀ batch, (book.applyBatch batch).1 ≠ .ok .applied →
      SameContents (book.applyBatch batch).2 book) ∧
    (∀ side price size sequence, (book.applyDelta side price size sequence).1 ≠ .ok .applied →
      SameContents (book.applyDelta side price size sequence).2 book) ∧
    (∀ expected format, SameContents (book.verifyChecksum expected format).2 book) ∧
    (∀ operation, book.LosesSync operation →
      let lost := book.after operation
      lost.isSynced = false ∧
      ∀ operations, (∀ operation ∈ operations, operation.isSnapshot = false) →
        let later := lost.run operations
        let refusal := Fault.outOfSync ⟨book.symbol, .awaitingSnapshot⟩
        later.isSynced = false ∧ later.bids = lost.bids ∧ later.asks = lost.asks ∧
        later.nonce = lost.nonce ∧
        later.buffered = (if .invalidate ∈ operations then [] else lost.buffered) ∧
        (∀ batch, later.applyBatch batch = (.error refusal, later)) ∧
        ∀ side price size sequence,
          later.applyDelta side price size sequence = (.error refusal, later)) ∧
    ∀ bids asks sequence count, (book.applySnapshot bids asks sequence).1 = .ok count →
      (book.applySnapshot bids asks sequence).2.isSynced = true := by
  refine ⟨fun batch h => applyBatch_sameContents h, fun side price size sequence h =>
    applyBatch_sameContents h, verifyChecksum_sameContents book, ?_, ?_⟩
  · intro operation h lost
    have hl : lost.needsResync = true := needsResync_of_losesSync h
    refine ⟨isSynced_of_needsResync hl, fun operations hs => ?_⟩
    intro later refusal
    obtain ⟨hf, hb⟩ : Frozen lost later ∧ _ := frozen_run ⟨hl, rfl, rfl, rfl, rfl⟩ hs
    have hr : later.syncFault .awaitingSnapshot = refusal := by
      rw [syncFault, hf.symbol, after_symbol]
    have hbatch : ∀ batch, later.applyBatch batch = (.error refusal, later) := by
      intro batch
      rw [applyBatch_of_needsResync hf.needsResync, hr]
    exact ⟨isSynced_of_needsResync hf.needsResync, hf.bids, hf.asks, hf.nonce, hb, hbatch,
      fun side price size sequence => hbatch (.single side price size sequence)⟩
  · intro bids asks sequence count h
    obtain ⟨hs, hr⟩ := book.applySnapshot_standing bids asks sequence
    rw [isSynced, hs, hr, h]
    rfl

/-- A gap loses the book, and the batch that would have closed it is refused. -/
theorem gap_freezes_book :
    let book := (new "BTC/USDT" .strict 100).run [.snapshot [] [] (some 5)]
    let numbered := fun sequence => (⟨none, some sequence, none, []⟩ : DeltaBatch)
    let gap := .batch (numbered 8)
    let lost := book.after gap
    let later := lost.run [.timestamp 7, .batch (numbered 6), .invalidate]
    book.LosesSync gap ∧ lost.isSynced = false ∧ later.isSynced = false ∧ later.nonce = some 5 ∧
      later.applyBatch (numbered 6) =
        (.error (.outOfSync ⟨"BTC/USDT", .awaitingSnapshot⟩), later) := by
  intro book numbered gap lost later
  have hl : book.LosesSync gap := Or.inr rfl
  obtain ⟨hs, hrun⟩ := (lost_book_is_frozen book).2.2.2.1 gap hl
  obtain ⟨hsynced, -, -, hn, -, hb, -⟩ :=
    hrun [.timestamp 7, .batch (numbered 6), .invalidate] (by decide)
  exact ⟨hl, hs, hsynced, hn, hb (numbered 6)⟩

end MarketFeed.OrderBook
