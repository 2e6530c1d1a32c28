import MarketFeed.Proofs.Book.Run
import Mathlib.Tactic.SplitIfs

/-!
# Sequences of a strict book

A strict book that knows its number applies a batch only if the next number lies in the range of the
batch. So from a numbered snapshot on, the ranges of the applied batches leave out no number up to
the nonce, whatever else arrives and whether or not the book is lost on the way.
-/

namespace MarketFeed

/-- The number lies between the first and the last of a batch. -/
def DeltaBatch.Covers (batch : DeltaBatch) (number : Nat) : Prop :=
  ∃ last, batch.sequence = some last ∧ batch.firstSequence.getD last ≤ number ∧ number ≤ last

namespace OrderBook

variable {book : OrderBook} {batch : DeltaBatch} {nonce : Nat}

lemma strict_due (h : judge .strict (some nonce) batch = .due) :
    ∃ last, batch.sequence = some last ∧ nonce < last ∧
      batch.firstSequence.getD last ≤ nonce + 1 := by
  cases hs : batch.sequence with
  | none => simp [judge, hs] at h
  | some last =>
    simp only [judge, hs, true_and] at h
    split_ifs at h with hl hg
    exact ⟨last, rfl, by omega, by omega⟩

/-- The book is strict, and each number after `start` up to its nonce lies in an applied batch. -/
structure Gapless (start : Nat) (log : List JournalEntry) (book : OrderBook) : Prop where
  policy : book.policy = .strict
  covered : ∃ nonce, book.nonce = some nonce ∧ start ≤ nonce ∧ ∀ number, start < number →
    number ≤ nonce → ∃ batch, .applied batch ∈ log ∧ batch.Covers number

lemma gapless_write {start : Nat} {log : List JournalEntry} (h : Gapless start log book)
    (hj : judge book.policy book.nonce batch = .due) :
    Gapless start (log ++ [.applied batch]) (book.write batch) := by
  obtain ⟨nonce, hn, hle, hc⟩ := h.covered
  rw [h.policy, hn] at hj
  obtain ⟨last, hs, hlt, hf⟩ := strict_due hj
  have hw : (book.write batch).nonce = some last := by
    rw [write, h.policy, hs]
    rfl
  refine ⟨(write_policy book batch).trans h.policy, last, hw, by omega, fun number hl hu => ?_⟩
  -- Numbers up to the old nonce are covered already; the batch covers those behind it.
  by_cases ho : number ≤ nonce
  · obtain ⟨earlier, hm, hk⟩ := hc number hl ho
    exact ⟨earlier, List.mem_append_left _ hm, hk⟩
  · exact ⟨batch, List.mem_append_right _ List.mem_cons_self, last, hs, by omega, hu⟩

lemma gapless_invariant (start : Nat) : JournalInvariant (Gapless start) where
  write := gapless_write
  quiet := fun h _ _ _ _ => ⟨h.policy, h.covered⟩

lemma gapless_restart (h : book.policy = .strict) (bids asks : List Level) (start : Nat) :
    Gapless start [.restarted bids asks (some start)] (book.restart bids asks (some start)) where
  policy := h
  covered := ⟨start, rfl, Nat.le_refl start, fun number hl hu => absurd hl (by omega)⟩

/-- From a snapshot with the number `start` on, a strict book has a nonce at every moment, and each
number after `start` up to the nonce lies in the range of a batch applied since. -/
theorem strict_run_covers (book : OrderBook) (hp : book.policy = .strict) (bids asks : List Level)
    (start : Nat) (operations : List BookOperation)
    (hs : ∀ operation ∈ operations, operation.isSnapshot = false) :
    let since := .snapshot bids asks (some start) :: operations
    ∃ nonce, (book.run since).nonce = some nonce ∧ start ≤ nonce ∧
      ∀ number, start < number → number ≤ nonce →
        ∃ batch, .applied batch ∈ book.journal since ∧ batch.Covers number := by
  intro since
  have hn : Gapless start (book.entries (.snapshot bids asks (some start)))
      (book.after (.snapshot bids asks (some start))) :=
    (gapless_invariant start).snapshot (gapless_restart hp bids asks start)
  exact ((gapless_invariant start).run hn hs).covered

/-- A range that begins before the snapshot is applied, and the gap behind it loses the book. -/
theorem strict_run_covers_range :
    let book := new "BTC/USDT" .strict 100
    let range : DeltaBatch := ⟨some 4, some 9, none, []⟩
    let late : DeltaBatch := ⟨none, some 11, none, []⟩
    let operations := [.batch range, .batch late]
    let since := .snapshot [] [] (some 5) :: operations
    book.policy = .strict ∧ (∀ operation ∈ operations, operation.isSnapshot = false) ∧
      (book.run since).nonce = some 9 ∧ (book.run since).needsResync = true ∧
      ∃ nonce, (book.run since).nonce = some nonce ∧ 5 ≤ nonce ∧
        ∀ number, 5 < number → number ≤ nonce →
          ∃ batch, .applied batch ∈ book.journal since ∧ batch.Covers number :=
  ⟨rfl, by decide, rfl, rfl, strict_run_covers _ rfl [] [] 5 _ (by decide)⟩

end OrderBook

end MarketFeed
