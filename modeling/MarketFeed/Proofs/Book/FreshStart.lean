import MarketFeed.Proofs.Book.Reconstruction

/-!
# Snapshots start a book over

A snapshot rebuilds the sides, the nonce and the standing of a book. The time alone is handed on: it
is that of the latest report, also from before the snapshot. So two books with the same name,
settings and batches held back are the same after the same snapshot, and stay the same, but for
times that nothing reported since has replaced.
-/

namespace MarketFeed.OrderBook

variable {α : Type} {book : OrderBook} {batch : DeltaBatch}

/-! The time of a book has no part in what is made of an operation. -/

def withTime (book : OrderBook) (timestamp : Option Int) : OrderBook := { book with timestamp }

/-- What `f` gives does not depend on the time of the book, and the time stays unless `f` reports
another one. -/
def PassesTime (f : OrderBook → α × OrderBook) (book : OrderBook) : Prop :=
  ∃ (result : α) (after : OrderBook) (reported : Option Int), ∀ timestamp,
    f (book.withTime timestamp) = (result, after.withTime (reported.or timestamp))

lemma foldl_writeLevel_withTime (book : OrderBook) (updates : List LevelUpdate)
    (timestamp : Option Int) : updates.foldl writeLevel (book.withTime timestamp) =
      (updates.foldl writeLevel book).withTime timestamp := by
  refine List.foldl_hom (withTime · timestamp) fun book update => ?_
  cases hs : update.side <;> simp only [writeLevel, withTime, hs]

lemma write_withTime (book : OrderBook) (batch : DeltaBatch) (timestamp : Option Int) :
    (book.withTime timestamp).write batch =
      (book.write batch).withTime (batch.timestamp.or timestamp) := by
  rw [write, foldl_writeLevel_withTime]
  cases hb : batch.timestamp with
  | none =>
    rw [Option.none_or]
    simp only [write, withTime, hb]
    rfl
  | some time =>
    rw [Option.some_or]
    simp only [write, withTime, hb]
    rfl

lemma passesTime_advance (book : OrderBook) (batch : DeltaBatch) :
    PassesTime (·.advance batch) book := by
  cases hj : judge book.policy book.nonce batch with
  | due =>
    refine ⟨.ok .applied, book.write batch, batch.timestamp, fun timestamp => ?_⟩
    rw [← write_withTime]
    exact advance_due hj
  | stale => exact ⟨.ok .stale, book, none, fun timestamp => advance_stale hj⟩
  | refused reason =>
    exact ⟨.error (book.syncFault reason), { book with needsResync := true }, none,
      fun timestamp => advance_refused hj⟩

lemma passesTime_replay (book : OrderBook) (count : Nat) (batches : List DeltaBatch) :
    PassesTime (·.replay count batches) book := by
  induction batches generalizing book count with
  | nil => exact ⟨.ok count, { book with buffered := [] }, none, fun timestamp => rfl⟩
  | cons batch rest ih =>
    obtain ⟨outcome, next, first, ha⟩ := passesTime_advance book batch
    cases outcome with
    | error fault =>
      refine ⟨.error fault, { next with buffered := rest }, first, fun timestamp => ?_⟩
      simp only [replay, ha]
      rfl
    | ok outcome =>
      obtain ⟨result, after, later, hr⟩ :=
        ih next (if outcome = .applied then count + 1 else count)
      refine ⟨result, after, later.or first, fun timestamp => ?_⟩
      rw [Option.or_assoc, ← hr]
      simp only [replay, ha]
      cases outcome <;> rfl

lemma PassesTime.map {β : Type} {f : OrderBook → α × OrderBook} (h : PassesTime f book)
    (g : α → β) : PassesTime (fun book => (f book).map g id) book := by
  obtain ⟨result, after, reported, hf⟩ := h
  exact ⟨g result, after, reported, fun timestamp => by
    dsimp only
    rw [hf, Prod.map_apply]
    rfl⟩

/-- What a snapshot does once the sides are written. -/
def catchUp (book : OrderBook) : Except Fault Nat × OrderBook :=
  match book.policy with
  | .unsequenced => (.ok 0, { book with buffered := [] })
  | _ => book.replay 0 book.buffered

lemma applySnapshot_eq_catchUp (book : OrderBook) (bids asks : List Level)
    (sequence : Option Nat) :
    book.applySnapshot bids asks sequence = (book.restart bids asks sequence).catchUp := rfl

lemma passesTime_catchUp (book : OrderBook) : PassesTime catchUp book := by
  cases hp : book.policy with
  | unsequenced =>
    refine ⟨.ok 0, { book with buffered := [] }, none, fun timestamp => ?_⟩
    simp only [catchUp, withTime, hp]
    rfl
  | strict =>
    obtain ⟨result, after, reported, h⟩ := passesTime_replay book 0 book.buffered
    refine ⟨result, after, reported, fun timestamp => ?_⟩
    rw [← h]
    simp only [catchUp, withTime, hp]
  | monotonic =>
    obtain ⟨result, after, reported, h⟩ := passesTime_replay book 0 book.buffered
    refine ⟨result, after, reported, fun timestamp => ?_⟩
    rw [← h]
    simp only [catchUp, withTime, hp]

lemma passesTime_applyBatch (book : OrderBook) (batch : DeltaBatch) :
    PassesTime (·.applyBatch batch) book := by
  by_cases hr : book.needsResync = true
  · exact ⟨.error (book.syncFault .awaitingSnapshot), book, none,
      fun timestamp => applyBatch_of_needsResync hr⟩
  · rw [Bool.not_eq_true] at hr
    by_cases hs : book.hasSnapshot = true
    · obtain ⟨result, after, reported, h⟩ := passesTime_advance book batch
      refine ⟨result, after, reported, fun timestamp => ?_⟩
      rw [← h]
      exact applyBatch_of_synced hr hs
    · rw [Bool.not_eq_true] at hs
      exact ⟨.ok .buffered, book.hold batch, none, fun timestamp => applyBatch_of_awaiting hr hs⟩

lemma passesTime_perform (book : OrderBook) (operation : BookOperation) :
    PassesTime (·.perform operation) book := by
  cases operation with
  | snapshot bids asks sequence =>
    exact PassesTime.map (passesTime_catchUp (book.restart bids asks sequence)) BookAnswer.replayed
  | batch batch => exact (passesTime_applyBatch book batch).map BookAnswer.taken
  | delta side price size sequence =>
    exact (passesTime_applyBatch book (.single side price size sequence)).map BookAnswer.taken
  | checksum expected format =>
    have h : PassesTime (·.verifyChecksum expected format) book := by
      by_cases hc : book.checksum format = expected
      · exact ⟨.ok (), book, none, fun timestamp => if_pos hc⟩
      · exact ⟨.error (book.syncFault (.checksum expected (book.checksum format))),
          { book with needsResync := true }, none, fun timestamp => if_neg hc⟩
    exact h.map BookAnswer.checked
  | invalidate => exact ⟨.done, book.invalidate, none, fun timestamp => rfl⟩
  | timestamp time => exact ⟨.done, book, some time, fun timestamp => rfl⟩

lemma passesTime_run (book : OrderBook) (operations : List BookOperation) :
    PassesTime (fun book => (book.answers operations, book.run operations)) book := by
  induction operations generalizing book with
  | nil => exact ⟨[], book, none, fun timestamp => rfl⟩
  | cons operation rest ih =>
    obtain ⟨answer, next, first, hp⟩ := passesTime_perform book operation
    obtain ⟨answers, final, later, hr⟩ := ih next
    refine ⟨answer :: answers, final, later.or first, fun timestamp => ?_⟩
    obtain ⟨ha, hf⟩ := Prod.mk.inj (hr (first.or timestamp))
    dsimp only at hp
    rw [Option.or_assoc, ← ha, ← hf]
    simp only [OrderBook.answers, run_cons, OrderBook.answer, after, hp]

/-! A snapshot builds all of a book anew but its time. -/

/-- What a book is set up with, and no operation changes. -/
structure SetUp (symbol : String) (policy : SequencePolicy) (bufferLimit : Nat)
    (book : OrderBook) : Prop where
  symbol : book.symbol = symbol
  policy : book.policy = policy
  bufferLimit : book.bufferLimit = bufferLimit

lemma setUp_invariant (symbol : String) (policy : SequencePolicy) (bufferLimit : Nat) :
    JournalInvariant fun _ => SetUp symbol policy bufferLimit where
  write := fun h _ => ⟨(write_symbol _ _).trans h.symbol, (write_policy _ _).trans h.policy,
    (write_bufferLimit _ _).trans h.bufferLimit⟩
  quiet := fun h _ _ _ _ => ⟨h.symbol, h.policy, h.bufferLimit⟩

lemma setUp_run (symbol : String) (policy : SequencePolicy) (bufferLimit : Nat)
    (operations : List BookOperation) :
    SetUp symbol policy bufferLimit ((new symbol policy bufferLimit).run operations) :=
  @JournalInvariant.run_of_restart _ [] _ (setUp_invariant symbol policy bufferLimit)
    (fun _ _ h _ _ _ => ⟨h.symbol, h.policy, h.bufferLimit⟩) ⟨rfl, rfl, rfl⟩ operations

/-- The book that a snapshot starts, from any run of a new book that left the same held back. -/
lemma restart_run (symbol : String) (policy : SequencePolicy) (bufferLimit : Nat)
    (past : List BookOperation) (bids asks : List Level) (sequence : Option Nat) :
    let start := new symbol policy bufferLimit
    let book := start.run past
    book.restart bids asks sequence =
      withTime { start.restart bids asks sequence with buffered := book.buffered }
        book.timestamp := by
  intro start book
  have hset : SetUp symbol policy bufferLimit book := setUp_run symbol policy bufferLimit past
  have hside : ∀ side, (book.ladder side).side = side :=
    (records_run symbol policy bufferLimit past).ordered.side_eq
  have hb : book.bids.replace bids = start.bids.replace bids := by
    rw [Ladder.replace, Ladder.replace, show book.bids.side = .bid from hside .bid]
    rfl
  have ha : book.asks.replace asks = start.asks.replace asks := by
    rw [Ladder.replace, Ladder.replace, show book.asks.side = .ask from hside .ask]
    rfl
  simp only [restart, withTime, hb, ha, hset.symbol, hset.policy, hset.bufferLimit]
  rfl

/-- Two runs of a new book that left the same batches held back get the same answers from the same
snapshot on, and their books differ in their times at most: each has the time `reported` since, or
else its own from before. So they are the same if a time was reported or if they had the same. -/
theorem snapshot_erases_all_but_time (symbol : String) (policy : SequencePolicy)
    (bufferLimit : Nat) (past other : List BookOperation) (bids asks : List Level)
    (sequence : Option Nat) (operations : List BookOperation) :
    let a := (new symbol policy bufferLimit).run past
    let b := (new symbol policy bufferLimit).run other
    let since := .snapshot bids asks sequence :: operations
    a.buffered = b.buffered →
      a.answers since = b.answers since ∧
        (a.run since).withTime none = (b.run since).withTime none ∧
        ∃ reported : Option Int, (a.run since).timestamp = reported.or a.timestamp ∧
          (b.run since).timestamp = reported.or b.timestamp ∧
          (a.run since = b.run since ↔ reported ≠ none ∨ a.timestamp = b.timestamp) := by
  intro a b since hb
  let fresh : OrderBook :=
    { (new symbol policy bufferLimit).restart bids asks sequence with buffered := b.buffered }
  have ha : a.restart bids asks sequence = fresh.withTime a.timestamp := by
    rw [restart_run, hb]
  have hb : b.restart bids asks sequence = fresh.withTime b.timestamp := restart_run ..
  obtain ⟨result, next, first, hc⟩ := passesTime_catchUp fresh
  obtain ⟨answers, final, later, hr⟩ := passesTime_run next operations
  have hrun : ∀ book : OrderBook, book.restart bids asks sequence = fresh.withTime book.timestamp →
      book.answers since = .replayed result :: answers ∧
        book.run since = final.withTime ((later.or first).or book.timestamp) := by
    intro book h
    have hs : book.perform (.snapshot bids asks sequence) =
        (.replayed result, next.withTime (first.or book.timestamp)) := by
      rw [perform, applySnapshot_eq_catchUp, h, hc]
      rfl
    obtain ⟨hq, hf⟩ := Prod.mk.inj (hr (first.or book.timestamp))
    rw [Option.or_assoc, ← hq, ← hf]
    simp only [since, OrderBook.answers, run_cons, answer, after, hs, and_self]
  obtain ⟨haa, har⟩ := hrun a ha
  obtain ⟨hba, hbr⟩ := hrun b hb
  refine ⟨haa.trans hba.symm, ?_, later.or first, ?_, ?_, ?_⟩
  · rw [har, hbr]
    rfl
  · rw [har]
    rfl
  · rw [hbr]
    rfl
  · rw [har, hbr]
    cases later.or first with
    | some time => simp
    | none =>
      simp only [Option.none_or, ne_eq, not_true_eq_false, false_or]
      constructor
      · intro h
        have ht := congrArg OrderBook.timestamp h
        exact ht
      · intro h
        rw [h]

/-- Two books out of step, one of them by a gap, are the same after a snapshot with which a batch
with a time arrives. -/
theorem snapshot_and_timed_batch :
    let start := new "BTC/USDT" .strict 100
    let numbered := fun sequence timestamp => (⟨none, some sequence, timestamp, []⟩ : DeltaBatch)
    let a := start.run [.snapshot [] [] (some 5), .batch (numbered 6 (some 7)), .invalidate]
    let b := start.run [.snapshot [] [] (some 1), .batch (numbered 9 none)]
    let since := [.snapshot [] [] (some 20), .batch (numbered 21 (some 30))]
    a.buffered = b.buffered ∧ a.timestamp ≠ b.timestamp ∧ a.answers since = b.answers since ∧
      a.run since = b.run since := by
  intro start numbered a b since
  obtain ⟨ha, -, reported, ht, -, he⟩ := snapshot_erases_all_but_time "BTC/USDT" .strict 100
    [.snapshot [] [] (some 5), .batch (numbered 6 (some 7)), .invalidate]
    [.snapshot [] [] (some 1), .batch (numbered 9 none)] [] [] (some 20)
    [.batch (numbered 21 (some 30))] rfl
  have hreported : reported ≠ none := by
    rintro rfl
    exact absurd ht (by decide)
  exact ⟨rfl, by decide, ha, he.mpr (Or.inl hreported)⟩

/-- A snapshot of a book that was used before shows the time of a batch that it discards. -/
theorem discarded_time_is_shown :
    let snapshot := BookOperation.snapshot [] [] (some 5)
    let unused := new "BTC/USDT" .strict 100
    let used := unused.run [snapshot, .batch ⟨none, some 6, some 7, []⟩]
    used.buffered = unused.buffered ∧
      ((unused.after snapshot).materialize none).timestamp = none ∧
      ((used.after snapshot).materialize none).timestamp = some 7 :=
  ⟨rfl, rfl, rfl⟩

end MarketFeed.OrderBook
