import MarketFeed.Book.OrderBook
import Mathlib.Tactic.Lemma

/-!
# Runs of an order book

The operations on a book, their answers, and the journal of a run: the snapshots, and the batches
that were applied, whether on arrival or replayed on a snapshot. A statement about a journal and its
book that survives every applied batch, and does not look at how the book stands with its feed,
holds along every run.
-/

namespace MarketFeed

/-- What is done to a book. -/
inductive BookOperation where
  | snapshot (bids asks : List Level) (sequence : Option Nat)
  | batch (batch : DeltaBatch)
  | delta (side : BookSide) (price size : Decimal) (sequence : Option Nat)
  | checksum (expected : Int) (format : ChecksumFormat)
  | invalidate
  | timestamp (timestamp : Int)
deriving DecidableEq, Repr

def BookOperation.isSnapshot : BookOperation → Bool
  | snapshot _ _ _ => true
  | _ => false

lemma BookOperation.eq_snapshot {operation : BookOperation} (h : operation.isSnapshot = true) :
    ∃ bids asks sequence, operation = snapshot bids asks sequence := by
  cases operation with
  | snapshot bids asks sequence => exact ⟨bids, asks, sequence, rfl⟩
  | _ => exact absurd h (by simp [isSnapshot])

inductive BookAnswer where
  | replayed (result : Except Fault Nat)
  | taken (result : Except Fault DeltaOutcome)
  | checked (result : Except Fault Unit)
  | done

def BookAnswer.isFailure : BookAnswer → Bool
  | replayed (.error _) | taken (.error _) | checked (.error _) => true
  | _ => false

/-- What reaches the levels of a book. -/
inductive JournalEntry where
  | restarted (bids asks : List Level) (sequence : Option Nat)
  | applied (batch : DeltaBatch)
deriving DecidableEq, Repr

/-- What a batch that met with `result` adds to the journal. -/
def JournalEntry.ofResult (batch : DeltaBatch) : Except Fault DeltaOutcome → List JournalEntry
  | .ok .applied => [applied batch]
  | _ => []

namespace OrderBook

def perform (book : OrderBook) : BookOperation → BookAnswer × OrderBook
  | .snapshot bids asks sequence => (book.applySnapshot bids asks sequence).map .replayed id
  | .batch batch => (book.applyBatch batch).map .taken id
  | .delta side price size sequence => (book.applyDelta side price size sequence).map .taken id
  | .checksum expected format => (book.verifyChecksum expected format).map .checked id
  | .invalidate => (.done, book.invalidate)
  | .timestamp timestamp => (.done, book.setTimestamp timestamp)

def answer (book : OrderBook) (operation : BookOperation) : BookAnswer :=
  (book.perform operation).1

def after (book : OrderBook) (operation : BookOperation) : OrderBook :=
  (book.perform operation).2

def run (book : OrderBook) (operations : List BookOperation) : OrderBook :=
  operations.foldl after book

def answers (book : OrderBook) : List BookOperation → List BookAnswer
  | [] => []
  | operation :: rest => book.answer operation :: (book.after operation).answers rest

/-- The batches that a replay applies, up to the first one that is refused. -/
def replayed (book : OrderBook) : List DeltaBatch → List DeltaBatch
  | [] => []
  | batch :: rest =>
    match book.advance batch with
    | (.ok .applied, book) => batch :: book.replayed rest
    | (.ok _, book) => book.replayed rest
    | (.error _, _) => []

/-- The batches that are applied on top of a snapshot. -/
def caughtUp (book : OrderBook) (bids asks : List Level) (sequence : Option Nat) :
    List DeltaBatch :=
  match book.policy with
  | .unsequenced => []
  | _ => (book.restart bids asks sequence).replayed book.buffered

def entries (book : OrderBook) : BookOperation → List JournalEntry
  | .snapshot bids asks sequence =>
    .restarted bids asks sequence :: (book.caughtUp bids asks sequence).map .applied
  | .batch batch => JournalEntry.ofResult batch (book.applyBatch batch).1
  | .delta side price size sequence =>
    JournalEntry.ofResult (.single side price size sequence)
      (book.applyDelta side price size sequence).1
  | .checksum _ _ | .invalidate | .timestamp _ => []

def journal (book : OrderBook) : List BookOperation → List JournalEntry
  | [] => []
  | operation :: rest => book.entries operation ++ (book.after operation).journal rest

variable {book : OrderBook} {batch : DeltaBatch} {rest : List DeltaBatch} {reason : SyncFault}

@[simp] lemma run_cons (operation : BookOperation) (operations : List BookOperation) :
    book.run (operation :: operations) = (book.after operation).run operations := rfl

/-! A batch is written to the levels, the nonce and the time of a book and to nothing else, and
what is held back has no part in it. -/

lemma foldl_writeLevel_frame (book : OrderBook) (updates : List LevelUpdate) :
    ∃ bids asks, updates.foldl writeLevel book = { book with bids, asks } := by
  induction updates generalizing book with
  | nil => exact ⟨book.bids, book.asks, rfl⟩
  | cons update rest ih =>
    obtain ⟨bids, asks, h⟩ := ih (book.writeLevel update)
    refine ⟨bids, asks, ?_⟩
    rw [List.foldl_cons, h, writeLevel]
    cases update.side <;> rfl

lemma write_frame (book : OrderBook) (batch : DeltaBatch) : ∃ bids asks nonce timestamp,
    book.write batch = { book with bids, asks, nonce, timestamp } := by
  obtain ⟨bids, asks, h⟩ := foldl_writeLevel_frame book batch.updates
  refine ⟨bids, asks, (book.write batch).nonce, (book.write batch).timestamp, ?_⟩
  rw [write, h]

@[simp] lemma write_symbol (book : OrderBook) (batch : DeltaBatch) :
    (book.write batch).symbol = book.symbol := by
  obtain ⟨_, _, _, _, h⟩ := book.write_frame batch
  rw [h]

@[simp] lemma write_policy (book : OrderBook) (batch : DeltaBatch) :
    (book.write batch).policy = book.policy := by
  obtain ⟨_, _, _, _, h⟩ := book.write_frame batch
  rw [h]

@[simp] lemma write_bufferLimit (book : OrderBook) (batch : DeltaBatch) :
    (book.write batch).bufferLimit = book.bufferLimit := by
  obtain ⟨_, _, _, _, h⟩ := book.write_frame batch
  rw [h]

@[simp] lemma write_hasSnapshot (book : OrderBook) (batch : DeltaBatch) :
    (book.write batch).hasSnapshot = book.hasSnapshot := by
  obtain ⟨_, _, _, _, h⟩ := book.write_frame batch
  rw [h]

@[simp] lemma write_needsResync (book : OrderBook) (batch : DeltaBatch) :
    (book.write batch).needsResync = book.needsResync := by
  obtain ⟨_, _, _, _, h⟩ := book.write_frame batch
  rw [h]

lemma foldl_writeLevel_buffered (book : OrderBook) (updates : List LevelUpdate)
    (buffered : List DeltaBatch) : updates.foldl writeLevel { book with buffered } =
      { updates.foldl writeLevel book with buffered } := by
  refine List.foldl_hom (fun book : OrderBook => { book with buffered }) fun book update => ?_
  cases hs : update.side <;> simp only [writeLevel, hs]

lemma write_buffered (book : OrderBook) (batch : DeltaBatch) (buffered : List DeltaBatch) :
    write { book with buffered } batch = { book.write batch with buffered } := by
  rw [write, foldl_writeLevel_buffered]
  rfl

/-! What is made of a batch depends on how it is judged. -/

lemma advance_due (h : judge book.policy book.nonce batch = .due) :
    book.advance batch = (.ok .applied, book.write batch) := by
  rw [advance, h]

lemma advance_stale (h : judge book.policy book.nonce batch = .stale) :
    book.advance batch = (.ok .stale, book) := by
  rw [advance, h]

lemma advance_refused (h : judge book.policy book.nonce batch = .refused reason) :
    book.advance batch = (.error (book.syncFault reason), { book with needsResync := true }) := by
  rw [advance, h]
  rfl

lemma replay_cons_due (h : judge book.policy book.nonce batch = .due) (count : Nat) :
    book.replay count (batch :: rest) = (book.write batch).replay (count + 1) rest := by
  rw [replay, advance_due h]

lemma replay_cons_stale (h : judge book.policy book.nonce batch = .stale) (count : Nat) :
    book.replay count (batch :: rest) = book.replay count rest := by
  rw [replay, advance_stale h]

lemma replay_cons_refused (h : judge book.policy book.nonce batch = .refused reason) (count : Nat) :
    book.replay count (batch :: rest) =
      (.error (book.syncFault reason), { book with needsResync := true, buffered := rest }) := by
  rw [replay, advance_refused h]

lemma replayed_cons_due (h : judge book.policy book.nonce batch = .due) :
    book.replayed (batch :: rest) = batch :: (book.write batch).replayed rest := by
  rw [replayed, advance_due h]

lemma replayed_cons_stale (h : judge book.policy book.nonce batch = .stale) :
    book.replayed (batch :: rest) = book.replayed rest := by
  rw [replayed, advance_stale h]

lemma replayed_cons_refused (h : judge book.policy book.nonce batch = .refused reason) :
    book.replayed (batch :: rest) = [] := by
  rw [replayed, advance_refused h]

lemma applyBatch_of_needsResync (h : book.needsResync = true) :
    book.applyBatch batch = (.error (book.syncFault .awaitingSnapshot), book) := by
  rw [applyBatch, if_pos h]

lemma applyBatch_of_awaiting (h : book.needsResync = false) (hs : book.hasSnapshot = false) :
    book.applyBatch batch = (.ok .buffered, book.hold batch) := by
  simp [applyBatch, h, hs]

lemma applyBatch_of_synced (h : book.needsResync = false) (hs : book.hasSnapshot = true) :
    book.applyBatch batch = book.advance batch := by
  simp [applyBatch, h, hs]

lemma applyBatch_cases (book : OrderBook) (batch : DeltaBatch) :
    (book.needsResync = true ∧
      book.applyBatch batch = (.error (book.syncFault .awaitingSnapshot), book)) ∨
    (book.hasSnapshot = false ∧ book.applyBatch batch = (.ok .buffered, book.hold batch)) ∨
    (judge book.policy book.nonce batch = .due ∧
      book.applyBatch batch = (.ok .applied, book.write batch)) ∨
    (judge book.policy book.nonce batch = .stale ∧ book.applyBatch batch = (.ok .stale, book)) ∨
    ∃ reason, judge book.policy book.nonce batch = .refused reason ∧ book.applyBatch batch =
      (.error (book.syncFault reason), { book with needsResync := true }) := by
  by_cases hr : book.needsResync = true
  · exact Or.inl ⟨hr, applyBatch_of_needsResync hr⟩
  · rw [Bool.not_eq_true] at hr
    by_cases hs : book.hasSnapshot = true
    · rw [applyBatch_of_synced hr hs]
      refine Or.inr (Or.inr ?_)
      cases hj : judge book.policy book.nonce batch with
      | due => exact Or.inl ⟨rfl, advance_due hj⟩
      | stale => exact Or.inr (Or.inl ⟨rfl, advance_stale hj⟩)
      | refused reason => exact Or.inr (Or.inr ⟨reason, rfl, advance_refused hj⟩)
    · rw [Bool.not_eq_true] at hs
      exact Or.inr (Or.inl ⟨hs, applyBatch_of_awaiting hr hs⟩)

lemma applySnapshot_of_unsequenced (h : book.policy = .unsequenced) (bids asks : List Level)
    (sequence : Option Nat) : book.applySnapshot bids asks sequence =
      (.ok 0, { book.restart bids asks sequence with buffered := [] }) := by
  simp only [applySnapshot, h]

lemma applySnapshot_of_sequenced (h : book.policy ≠ .unsequenced) (bids asks : List Level)
    (sequence : Option Nat) : book.applySnapshot bids asks sequence =
      (book.restart bids asks sequence).replay 0 book.buffered := by
  cases hp : book.policy with
  | unsequenced => exact absurd hp h
  | strict => simp only [applySnapshot, hp]
  | monotonic => simp only [applySnapshot, hp]

lemma caughtUp_of_unsequenced (h : book.policy = .unsequenced) (bids asks : List Level)
    (sequence : Option Nat) : book.caughtUp bids asks sequence = [] := by
  simp only [caughtUp, h]

lemma caughtUp_of_sequenced (h : book.policy ≠ .unsequenced) (bids asks : List Level)
    (sequence : Option Nat) : book.caughtUp bids asks sequence =
      (book.restart bids asks sequence).replayed book.buffered := by
  cases hp : book.policy with
  | unsequenced => exact absurd hp h
  | strict => simp only [caughtUp, hp]
  | monotonic => simp only [caughtUp, hp]

end OrderBook

open OrderBook (judge)

/-- A statement about a journal and its book that survives every batch that is due, and for which
it does not matter how the book stands with its feed. -/
structure JournalInvariant (P : List JournalEntry → OrderBook → Prop) : Prop where
  write : ∀ {log book batch}, P log book → judge book.policy book.nonce batch = .due →
    P (log ++ [.applied batch]) (book.write batch)
  quiet : ∀ {log book}, P log book → ∀ timestamp hasSnapshot needsResync buffered,
    P log { book with timestamp, hasSnapshot, needsResync, buffered }

namespace JournalInvariant

variable {P : List JournalEntry → OrderBook → Prop} {log : List JournalEntry} {book : OrderBook}

lemma replay (h : JournalInvariant P) (hp : P log book) (count : Nat) (batches : List DeltaBatch) :
    P (log ++ (book.replayed batches).map .applied) (book.replay count batches).2 := by
  induction batches generalizing log book count with
  | nil =>
    rw [OrderBook.replayed, List.map_nil, List.append_nil]
    exact h.quiet hp book.timestamp book.hasSnapshot book.needsResync []
  | cons batch rest ih =>
    cases hj : judge book.policy book.nonce batch with
    | due =>
      have hw := ih (h.write hp hj) (count + 1)
      rw [OrderBook.replayed_cons_due hj, OrderBook.replay_cons_due hj, List.map_cons]
      rwa [List.append_assoc, List.singleton_append] at hw
    | stale =>
      rw [OrderBook.replayed_cons_stale hj, OrderBook.replay_cons_stale hj]
      exact ih hp count
    | refused reason =>
      rw [OrderBook.replayed_cons_refused hj, OrderBook.replay_cons_refused hj, List.map_nil,
        List.append_nil]
      exact h.quiet hp book.timestamp book.hasSnapshot true rest

lemma snapshot (h : JournalInvariant P) {bids asks : List Level} {sequence : Option Nat}
    (hp : P log (book.restart bids asks sequence)) :
    P (log ++ (book.caughtUp bids asks sequence).map .applied)
      (book.applySnapshot bids asks sequence).2 := by
  by_cases hu : book.policy = .unsequenced
  · rw [OrderBook.caughtUp_of_unsequenced hu, OrderBook.applySnapshot_of_unsequenced hu,
      List.map_nil, List.append_nil]
    exact h.quiet hp book.timestamp true false []
  · rw [OrderBook.caughtUp_of_sequenced hu, OrderBook.applySnapshot_of_sequenced hu]
    exact h.replay hp 0 book.buffered

lemma applyBatch (h : JournalInvariant P) (hp : P log book) (batch : DeltaBatch) :
    P (log ++ JournalEntry.ofResult batch (book.applyBatch batch).1) (book.applyBatch batch).2 := by
  rcases book.applyBatch_cases batch with
    ⟨-, ha⟩ | ⟨-, ha⟩ | ⟨hj, ha⟩ | ⟨-, ha⟩ | ⟨reason, -, ha⟩
  · rw [ha]
    simpa only [JournalEntry.ofResult, List.append_nil] using hp
  · have hq : P log (book.hold batch) :=
      h.quiet hp book.timestamp book.hasSnapshot book.needsResync (book.hold batch).buffered
    rw [ha]
    simpa only [JournalEntry.ofResult, List.append_nil] using hq
  · rw [ha]
    exact h.write hp hj
  · rw [ha]
    simpa only [JournalEntry.ofResult, List.append_nil] using hp
  · have hq := h.quiet hp book.timestamp book.hasSnapshot true book.buffered
    rw [ha]
    simpa only [JournalEntry.ofResult, List.append_nil] using hq

lemma after (h : JournalInvariant P) (hp : P log book) {operation : BookOperation}
    (hs : operation.isSnapshot = false) :
    P (log ++ book.entries operation) (book.after operation) := by
  cases operation with
  | snapshot bids asks sequence => exact absurd hs (by simp [BookOperation.isSnapshot])
  | batch batch => exact h.applyBatch hp batch
  | delta side price size sequence => exact h.applyBatch hp (.single side price size sequence)
  | checksum expected format =>
    rw [OrderBook.entries, List.append_nil]
    change P log (book.verifyChecksum expected format).2
    rw [OrderBook.verifyChecksum]
    split
    · exact hp
    · exact h.quiet hp book.timestamp book.hasSnapshot true book.buffered
  | invalidate =>
    rw [OrderBook.entries, List.append_nil]
    exact h.quiet hp book.timestamp book.hasSnapshot true []
  | timestamp timestamp =>
    rw [OrderBook.entries, List.append_nil]
    exact h.quiet hp (some timestamp) book.hasSnapshot book.needsResync book.buffered

lemma run (h : JournalInvariant P) (hp : P log book) {operations : List BookOperation}
    (hs : ∀ operation ∈ operations, operation.isSnapshot = false) :
    P (log ++ book.journal operations) (book.run operations) := by
  induction operations generalizing log book with
  | nil =>
    rw [OrderBook.journal, List.append_nil]
    exact hp
  | cons operation rest ih =>
    rw [List.forall_mem_cons] at hs
    have hr := ih (h.after hp hs.1) hs.2
    rwa [List.append_assoc] at hr

/-- Any run, for a statement that a snapshot makes true again. -/
lemma run_of_restart (h : JournalInvariant P)
    (hr : ∀ log book, P log book → ∀ bids asks sequence,
      P (log ++ [.restarted bids asks sequence]) (book.restart bids asks sequence))
    (hp : P log book) (operations : List BookOperation) :
    P (log ++ book.journal operations) (book.run operations) := by
  induction operations generalizing log book with
  | nil =>
    rw [OrderBook.journal, List.append_nil]
    exact hp
  | cons operation rest ih =>
    have ha : P (log ++ book.entries operation) (book.after operation) := by
      cases hs : operation.isSnapshot with
      | false => exact h.after hp hs
      | true =>
        obtain ⟨bids, asks, sequence, rfl⟩ := BookOperation.eq_snapshot hs
        have hn := h.snapshot (hr log book hp bids asks sequence)
        rwa [List.append_assoc, List.singleton_append] at hn
    have hn := ih ha
    rwa [List.append_assoc] at hn

end JournalInvariant

end MarketFeed
