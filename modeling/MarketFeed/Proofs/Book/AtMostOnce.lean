import MarketFeed.Proofs.Book.Run
import Mathlib.Data.List.Pairwise
import Mathlib.Order.Basic

/-!
# Batches are applied at most once

From a numbered snapshot on, a book with a sequencing policy applies numbered batches in strictly
ascending order, and its nonce is the number of the last one. So a batch that comes again is stale,
however much later and whatever came in between.
-/

namespace MarketFeed

/-- The number of a batch that was applied, if it has one. -/
def JournalEntry.number? : JournalEntry → Option Nat
  | restarted _ _ _ => none
  | applied batch => batch.sequence

/-- The numbers of the applied batches, in the order of the journal. -/
def JournalEntry.numbers (log : List JournalEntry) : List Nat := log.filterMap number?

namespace OrderBook

open JournalEntry (numbers)

variable {book : OrderBook} {batch : DeltaBatch} {log : List JournalEntry} {nonce last start : Nat}

lemma numbers_concat_of_none (h : batch.sequence = none) :
    numbers (log ++ [.applied batch]) = numbers log := by
  simp [numbers, JournalEntry.number?, h]

lemma numbers_concat_of_some (h : batch.sequence = some last) :
    numbers (log ++ [.applied batch]) = numbers log ++ [last] := by
  simp [numbers, JournalEntry.number?, h]

lemma mem_numbers (h : batch.sequence = some last) (hm : .applied batch ∈ log) :
    last ∈ numbers log :=
  List.mem_filterMap.mpr ⟨.applied batch, hm, h⟩

lemma judge_of_le (hp : book.policy ≠ .unsequenced) (hn : book.nonce = some nonce)
    (hs : batch.sequence = some last) (hl : last ≤ nonce) :
    judge book.policy book.nonce batch = .stale := by
  rw [hn]
  cases hq : book.policy with
  | unsequenced => exact absurd hq hp
  | strict => simp only [judge, hs, if_pos hl]
  | monotonic => simp only [judge, hs, if_pos hl]

lemma lt_of_due (hp : book.policy ≠ .unsequenced) (hn : book.nonce = some nonce)
    (hs : batch.sequence = some last) (hj : judge book.policy book.nonce batch = .due) :
    nonce < last := by
  by_contra hl
  rw [judge_of_le hp hn hs (Nat.le_of_not_lt hl)] at hj
  exact absurd hj (by simp)

/-- The book tells batches apart by their numbers, those of the applied batches ascend from `start`
on, and the nonce is the last of them. -/
structure Ascending (start : Nat) (log : List JournalEntry) (book : OrderBook) : Prop where
  policy : book.policy ≠ .unsequenced
  ascending : (start :: numbers log).Pairwise (· < ·)
  nonce : book.nonce = some ((numbers log).getLastD start)

lemma Ascending.le_nonce (h : Ascending start log book) {number : Nat}
    (hm : number ∈ start :: numbers log) : number ≤ (numbers log).getLastD start := by
  have hle : (start :: numbers log).Pairwise (· ≤ ·) := h.ascending.imp Nat.le_of_lt
  have hlast := hle.rel_getLast hm
  rwa [List.getLast_eq_getLastD] at hlast

lemma ascending_write (h : Ascending start log book)
    (hj : judge book.policy book.nonce batch = .due) :
    Ascending start (log ++ [.applied batch]) (book.write batch) := by
  have hp : (book.write batch).policy ≠ .unsequenced := by
    rw [write_policy]
    exact h.policy
  have hw : (book.write batch).nonce = (batch.sequence <|> book.nonce) := by
    rw [write, if_neg h.policy]
  cases hs : batch.sequence with
  | none =>
    -- The batch is applied without a number and moves nothing.
    refine ⟨hp, ?_, ?_⟩
    · rw [numbers_concat_of_none hs]
      exact h.ascending
    · rw [numbers_concat_of_none hs, hw, hs, ← h.nonce]
      rfl
  | some last =>
    have hlt : (numbers log).getLastD start < last := lt_of_due h.policy h.nonce hs hj
    refine ⟨hp, ?_, ?_⟩
    · rw [numbers_concat_of_some hs, ← List.cons_append, List.pairwise_append]
      refine ⟨h.ascending, List.pairwise_singleton _ _, fun number hm other ho => ?_⟩
      rw [List.mem_singleton.mp ho]
      exact Nat.lt_of_le_of_lt (h.le_nonce hm) hlt
    · rw [numbers_concat_of_some hs, hw, hs, List.getLastD_concat]
      rfl

lemma ascending_invariant (start : Nat) : JournalInvariant (Ascending start) where
  write := ascending_write
  quiet := fun h _ _ _ _ => ⟨h.policy, h.ascending, h.nonce⟩

lemma ascending_restart (h : book.policy ≠ .unsequenced) (bids asks : List Level) (start : Nat) :
    Ascending start [.restarted bids asks (some start)] (book.restart bids asks (some start)) where
  policy := h
  ascending := List.pairwise_singleton _ _
  nonce := rfl

lemma Ascending.stale (h : Ascending start log book) (hs : book.isSynced = true)
    (hn : batch.sequence = some last) (hm : .applied batch ∈ log) :
    book.applyBatch batch = (.ok .stale, book) := by
  have hle : last ≤ (numbers log).getLastD start :=
    h.le_nonce (List.mem_cons_of_mem _ (mem_numbers hn hm))
  simp only [isSynced, Bool.and_eq_true, Bool.not_eq_true'] at hs
  rw [applyBatch_of_synced hs.2 hs.1]
  exact advance_stale (judge_of_le h.policy h.nonce hn hle)

/-- From a snapshot with the number `start` on, at every moment: the numbers of the batches applied
since ascend strictly and lie above `start`, the nonce is the last of them, or else `start`, and
each of these batches is stale when it comes again to the book in sync, which it leaves as it is. -/
theorem numbered_batch_applied_once (book : OrderBook) (hp : book.policy ≠ .unsequenced)
    (bids asks : List Level) (start : Nat) (operations : List BookOperation)
    (hs : ∀ operation ∈ operations, operation.isSnapshot = false) :
    let since := .snapshot bids asks (some start) :: operations
    let later := book.run since
    let applied := numbers (book.journal since)
    applied.Pairwise (· < ·) ∧ (∀ number ∈ applied, start < number) ∧
      later.nonce = some (applied.getLastD start) ∧
      (later.isSynced = true → ∀ batch, .applied batch ∈ book.journal since →
        batch.sequence ≠ none → later.applyBatch batch = (.ok .stale, later)) := by
  intro since later applied
  have hn : Ascending start (book.entries (.snapshot bids asks (some start)))
      (book.after (.snapshot bids asks (some start))) :=
    (ascending_invariant start).snapshot (ascending_restart hp bids asks start)
  have h : Ascending start (book.journal since) later := (ascending_invariant start).run hn hs
  obtain ⟨hlt, hasc⟩ := List.pairwise_cons.mp h.ascending
  refine ⟨hasc, hlt, h.nonce, fun hsync batch hm hnum => ?_⟩
  obtain ⟨last, hlast⟩ := Option.ne_none_iff_exists'.mp hnum
  exact h.stale hsync hlast hm

/-- A batch held back and replayed comes again after a gap, a batch without a number and a batch of
a range, and is stale. -/
theorem replayed_batch_applied_once :
    let numbered := fun sequence => (⟨none, some sequence, none, []⟩ : DeltaBatch)
    let book := (new "BTC/USDT" .monotonic 100).run [.batch (numbered 3), .batch (numbered 7)]
    let operations := [.batch ⟨none, none, some 1, []⟩, .batch ⟨some 4, some 20, none, []⟩]
    let since := .snapshot [] [] (some 5) :: operations
    let later := book.run since
    book.policy ≠ .unsequenced ∧ (∀ operation ∈ operations, operation.isSnapshot = false) ∧
      JournalEntry.numbers (book.journal since) = [7, 20] ∧ later.isSynced = true ∧
      later.nonce = some 20 ∧ later.applyBatch (numbered 7) = (.ok .stale, later) := by
  intro numbered book operations since later
  obtain ⟨-, -, hn, hstale⟩ :=
    numbered_batch_applied_once book (by decide) [] [] 5 operations (by decide)
  exact ⟨by decide, by decide, rfl, rfl, hn, hstale rfl (numbered 7) (by decide) (by decide)⟩

end OrderBook

end MarketFeed
