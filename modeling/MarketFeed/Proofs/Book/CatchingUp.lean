import MarketFeed.Proofs.Book.AtMostOnce
import MarketFeed.Proofs.Book.Sequencing

/-!
# Catching up with a snapshot

Batches that were held back are replayed on a snapshot if they are newer than it. Two numbers tell
whether they are. Where one of them is missing, the batch is replayed all the same: a book that
allows gaps replays every batch without a number, and on a snapshot without a number the first
batch is replayed, whatever its number.
-/

namespace MarketFeed.OrderBook

variable {book : OrderBook} {batch : DeltaBatch} {sequence : Option Nat}

/-! A replay writes the batches that it applies, and nothing else. -/

lemma replayed_sublist (book : OrderBook) (batches : List DeltaBatch) :
    (book.replayed batches).Sublist batches := by
  induction batches generalizing book with
  | nil => exact List.Sublist.slnil
  | cons batch rest ih =>
    cases hj : judge book.policy book.nonce batch with
    | due =>
      rw [replayed_cons_due hj]
      exact (ih (book.write batch)).cons_cons batch
    | stale =>
      rw [replayed_cons_stale hj]
      exact (ih book).cons batch
    | refused reason =>
      rw [replayed_cons_refused hj]
      exact List.nil_sublist _

lemma replay_writes (book : OrderBook) (count : Nat) (batches : List DeltaBatch) :
    ∃ needsResync buffered, (book.replay count batches).2 =
      { (book.replayed batches).foldl write book with needsResync, buffered } := by
  induction batches generalizing book count with
  | nil => exact ⟨book.needsResync, [], rfl⟩
  | cons batch rest ih =>
    cases hj : judge book.policy book.nonce batch with
    | due =>
      rw [replayed_cons_due hj, replay_cons_due hj]
      exact ih (book.write batch) (count + 1)
    | stale =>
      rw [replayed_cons_stale hj, replay_cons_stale hj]
      exact ih book count
    | refused reason =>
      rw [replayed_cons_refused hj, replay_cons_refused hj]
      exact ⟨true, rest, rfl⟩

/-! Batches and snapshots that have numbers. -/

/-- Both have a number, and that of the batch is the larger one. -/
def NewerThan (batch : DeltaBatch) (sequence : Option Nat) : Prop :=
  ∃ start last, sequence = some start ∧ batch.sequence = some last ∧ start < last

lemma newer_of_mem_caughtUp {start last : Nat} (hp : book.policy ≠ .unsequenced)
    {bids asks : List Level} (hm : batch ∈ book.caughtUp bids asks (some start))
    (hs : batch.sequence = some last) : start < last := by
  have hascending := (ascending_invariant start).snapshot (ascending_restart hp bids asks start)
  refine (List.pairwise_cons.mp hascending.ascending).1 last (mem_numbers hs ?_)
  exact List.mem_append_right _ (List.mem_map_of_mem hm)

/-- The book is strict and has a number, and so has every batch that was applied to it. -/
structure Numbered (log : List JournalEntry) (book : OrderBook) : Prop where
  policy : book.policy = .strict
  nonce : ∃ nonce, book.nonce = some nonce
  numbered : ∀ batch, .applied batch ∈ log → batch.sequence ≠ none

lemma numbered_invariant : JournalInvariant Numbered where
  quiet := fun h _ _ _ _ => ⟨h.policy, h.nonce, h.numbered⟩
  write := by
    intro log book batch h hj
    obtain ⟨nonce, hn⟩ := h.nonce
    rw [h.policy, hn] at hj
    obtain ⟨last, hs, -, -⟩ := strict_due hj
    have hw : (book.write batch).nonce = some last := by
      rw [write, h.policy, hs]
      rfl
    refine ⟨(write_policy book batch).trans h.policy, ⟨last, hw⟩, fun other hm => ?_⟩
    rcases List.mem_append.mp hm with hm | hm
    · exact h.numbered other hm
    · obtain rfl : other = batch := by simpa using hm
      simp [hs]

lemma sequence_ne_none_of_mem_caughtUp {start : Nat} (hp : book.policy = .strict)
    {bids asks : List Level} (hm : batch ∈ book.caughtUp bids asks (some start)) :
    batch.sequence ≠ none := by
  have hrestart : Numbered [.restarted bids asks (some start)]
      (book.restart bids asks (some start)) := ⟨hp, ⟨start, rfl⟩, by simp⟩
  have hnumbered := numbered_invariant.snapshot hrestart
  exact hnumbered.numbered batch (List.mem_append_right _ (List.mem_map_of_mem hm))

lemma newerThan_of_mem_caughtUp (hp : book.policy ≠ .unsequenced) {bids asks : List Level}
    (hm : batch ∈ book.caughtUp bids asks sequence) : NewerThan batch sequence ∨
      sequence = none ∨ book.policy = .monotonic ∧ batch.sequence = none := by
  cases sequence with
  | none => exact Or.inr (Or.inl rfl)
  | some start =>
    cases hs : batch.sequence with
    | some last => exact Or.inl ⟨start, last, rfl, hs, newer_of_mem_caughtUp hp hm hs⟩
    | none =>
      cases hq : book.policy with
      | unsequenced => exact absurd hq hp
      | strict => exact absurd hs (sequence_ne_none_of_mem_caughtUp hq hm)
      | monotonic => exact Or.inr (Or.inr ⟨rfl, rfl⟩)

/-! Batches and snapshots that have none. -/

lemma judge_of_none (policy : SequencePolicy) (batch : DeltaBatch) :
    judge policy none batch = .due := by
  cases policy <;> rfl

/-- Before a book has a number, it applies the batch that comes. -/
lemma replayed_head (h : book.nonce = none) (batches : List DeltaBatch) :
    (book.replayed batches).head? = batches.head? := by
  cases batches with
  | nil => rfl
  | cons batch rest =>
    have hj : judge book.policy book.nonce batch = .due := by rw [h, judge_of_none]
    rw [replayed_cons_due hj, List.head?_cons, List.head?_cons]

lemma judge_monotonic_of_none (nonce : Option Nat) (h : batch.sequence = none) :
    judge .monotonic nonce batch = .due := by
  cases nonce <;> simp [judge, h]

lemma judge_monotonic_ne_refused (nonce : Option Nat) (batch : DeltaBatch) (reason : SyncFault) :
    judge .monotonic nonce batch ≠ .refused reason := by
  cases nonce with
  | none => simp [judge]
  | some nonce =>
    cases hs : batch.sequence with
    | none => simp [judge, hs]
    | some last => by_cases hl : last ≤ nonce <;> simp [judge, hs, hl]

/-- A book that allows gaps applies every batch without a number. -/
lemma mem_replayed_of_none {batches : List DeltaBatch} (hp : book.policy = .monotonic)
    (hm : batch ∈ batches) (hs : batch.sequence = none) : batch ∈ book.replayed batches := by
  induction batches generalizing book with
  | nil => exact absurd hm List.not_mem_nil
  | cons head rest ih =>
    cases hj : judge book.policy book.nonce head with
    | due =>
      rw [replayed_cons_due hj]
      rcases List.mem_cons.mp hm with rfl | hm
      · exact List.mem_cons_self ..
      · exact List.mem_cons_of_mem _ (ih ((write_policy book head).trans hp) hm)
    | stale =>
      rw [replayed_cons_stale hj]
      rcases List.mem_cons.mp hm with rfl | hm
      · rw [hp, judge_monotonic_of_none _ hs] at hj
        exact absurd hj (by simp)
      · exact ih hp hm
    | refused reason =>
      rw [hp] at hj
      exact absurd hj (judge_monotonic_ne_refused _ _ _)

/-- On a snapshot, a book writes some of the batches that it held back, and nothing else. Each of
them is newer than the snapshot unless the snapshot has no number, or the batch has none and the
book allows gaps. In these two cases it is not asked which one is newer: the first batch is written
in any case, or every batch without a number. -/
theorem replayed_newer_unless_unnumbered (book : OrderBook) (hp : book.policy ≠ .unsequenced)
    (bids asks : List Level) (sequence : Option Nat) :
    let replayed := book.caughtUp bids asks sequence
    (∃ needsResync buffered, (book.applySnapshot bids asks sequence).2 =
      { replayed.foldl write (book.restart bids asks sequence) with needsResync, buffered }) ∧
    replayed.Sublist book.buffered ∧
    (∀ batch ∈ replayed, NewerThan batch sequence ∨ sequence = none ∨
      book.policy = .monotonic ∧ batch.sequence = none) ∧
    (sequence = none → replayed.head? = book.buffered.head?) ∧
    (book.policy = .monotonic → ∀ batch ∈ book.buffered, batch.sequence = none →
      batch ∈ replayed) := by
  intro replayed
  have hreplayed : replayed = (book.restart bids asks sequence).replayed book.buffered :=
    caughtUp_of_sequenced hp bids asks sequence
  refine ⟨?_, ?_, fun batch hm => ?_, fun hn => ?_, fun hq batch hm hs => ?_⟩
  · rw [hreplayed, applySnapshot_of_sequenced hp]
    exact replay_writes _ 0 book.buffered
  · rw [hreplayed]
    exact replayed_sublist _ book.buffered
  · exact newerThan_of_mem_caughtUp hp hm
  · rw [hreplayed]
    exact replayed_head hn book.buffered
  · rw [hreplayed]
    exact mem_replayed_of_none hq hm hs

/-- Of three batches the first is older than the snapshot and left out. The second has no number and
is written, and the third is newer than the snapshot. -/
theorem older_batch_left_out :
    let numbered := fun sequence => (⟨none, some sequence, none, []⟩ : DeltaBatch)
    let unnumbered : DeltaBatch := ⟨none, none, some 1, []⟩
    let held := (new "BTC/USDT" .monotonic 100).run
      [.batch (numbered 3), .batch unnumbered, .batch (numbered 7)]
    let replayed := held.caughtUp [] [] (some 5)
    held.policy ≠ .unsequenced ∧ replayed = [unnumbered, numbered 7] ∧
      NewerThan (numbered 7) (some 5) ∧ unnumbered ∈ replayed := by
  intro numbered unnumbered held replayed
  have hp : held.policy ≠ .unsequenced := by decide
  obtain ⟨-, -, hnewer, -, hunnumbered⟩ := replayed_newer_unless_unnumbered held hp [] [] (some 5)
  refine ⟨hp, rfl, ?_, hunnumbered rfl unnumbered (by decide) rfl⟩
  rcases hnewer (numbered 7) (by decide) with h | h | h
  · exact h
  · exact absurd h (by decide)
  · exact absurd h (by decide)

/-- A batch without a number is written over a numbered snapshot, and a numbered batch over a
snapshot without a number. Nothing says that either is newer than the snapshot, whose level it
changes. -/
theorem unordered_batch_written_over_snapshot :
    let one : Decimal := ⟨1, 0, by decide, by decide⟩
    let level := fun amount => (⟨⟨100, 0, by decide, by decide⟩, amount⟩ : Level)
    let batch := fun sequence =>
      (⟨none, sequence, none, [⟨.bid, (level .two).price, .two⟩]⟩ : DeltaBatch)
    let shown := fun policy batchSequence sequence =>
      let held := (new "BTC/USDT" policy 100).run [.batch (batch batchSequence)]
      let started := held.applySnapshot [level one] [] sequence
      (started.1.toOption, started.2.bids.levels)
    shown .monotonic none (some 5) = (some 1, [level .two]) ∧
      ¬ NewerThan (batch none) (some 5) ∧
      shown .strict (some 3) none = (some 1, [level .two]) ∧
      ¬ NewerThan (batch (some 3)) none := by
  intro one level batch shown
  refine ⟨by decide, ?_, by decide, ?_⟩
  · rintro ⟨start, last, -, hlast, -⟩
    exact absurd hlast (by simp [batch])
  · rintro ⟨start, last, hstart, -, -⟩
    exact absurd hstart (by simp)

end MarketFeed.OrderBook
