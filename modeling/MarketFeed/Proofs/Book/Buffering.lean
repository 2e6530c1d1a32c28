import MarketFeed.Proofs.Book.Run
import Mathlib.Tactic.Set
import Mathlib.Tactic.SplitIfs

/-!
# Batches held back

A book without a snapshot holds back the newest batches, as many as it has room for. Replaying them
on the snapshot is the same as taking the snapshot first and the batches after it.
-/

namespace MarketFeed.OrderBook

variable {book : OrderBook} {batch : DeltaBatch} {rest : List DeltaBatch}

/-- Passes batches to the book one by one, up to the first one that fails. -/
def deliver (book : OrderBook) : List DeltaBatch → Except Fault (List DeltaOutcome) × OrderBook
  | [] => (.ok [], book)
  | batch :: rest =>
    match book.applyBatch batch with
    | (.ok outcome, book) => (book.deliver rest).map (Except.map (outcome :: ·)) id
    | (.error fault, book) => (.error fault, book)

lemma deliver_cons_ok {after : OrderBook} {outcome : DeltaOutcome}
    (h : book.applyBatch batch = (.ok outcome, after)) :
    book.deliver (batch :: rest) =
      ((after.deliver rest).1.map (outcome :: ·), (after.deliver rest).2) := by
  rw [deliver, h]
  rfl

lemma deliver_cons_error {after : OrderBook} {fault : Fault}
    (h : book.applyBatch batch = (.error fault, after)) :
    book.deliver (batch :: rest) = (.error fault, after) := by
  rw [deliver, h]

def holding (book : OrderBook) (buffered : List DeltaBatch) : OrderBook := { book with buffered }

/-! What is held back are the newest batches. -/

/-- The newest batches that a book with the given limit has room for: one in any case. -/
def newest (limit : Nat) (batches : List DeltaBatch) : List DeltaBatch :=
  batches.drop (batches.length - max limit 1)

lemma newest_suffix (limit : Nat) (batches : List DeltaBatch) : newest limit batches <:+ batches :=
  List.drop_suffix _ _

lemma length_newest (limit : Nat) (batches : List DeltaBatch) :
    (newest limit batches).length = min batches.length (max limit 1) := by
  rw [newest, List.length_drop]
  omega

/-- Only the newest batches are that many and end the list. -/
lemma eq_newest {limit : Nat} {kept batches : List DeltaBatch} (h : kept <:+ batches)
    (hl : kept.length = min batches.length (max limit 1)) : kept = newest limit batches := by
  have hn := length_newest limit batches
  exact (List.suffix_of_suffix_length_le h (newest_suffix limit batches) (by omega)).eq_of_length
    (by omega)

lemma newest_append (limit : Nat) (older newer : List DeltaBatch) :
    newest limit (newest limit older ++ newer) = newest limit (older ++ newer) := by
  have hs : newest limit older ++ newer <:+ older ++ newer := by
    obtain ⟨dropped, hd⟩ := newest_suffix limit older
    exact ⟨dropped, by rw [← List.append_assoc, hd]⟩
  apply eq_newest ((newest_suffix limit _).trans hs)
  rw [length_newest, List.length_append, List.length_append, length_newest]
  omega

lemma hold_eq (h : book.buffered.length ≤ max book.bufferLimit 1) (batch : DeltaBatch) :
    book.hold batch = book.holding (newest book.bufferLimit (book.buffered ++ [batch])) := by
  have hb : (if book.bufferLimit ≤ book.buffered.length then book.buffered.tail
      else book.buffered) ++ [batch] = newest book.bufferLimit (book.buffered ++ [batch]) := by
    apply eq_newest
    · split_ifs
      · obtain ⟨dropped, hd⟩ := List.tail_suffix book.buffered
        exact ⟨dropped, by rw [← List.append_assoc, hd]⟩
      · exact List.suffix_rfl
    · split_ifs
      · rw [List.length_append, List.length_append, List.length_tail, List.length_singleton]
        omega
      · rw [List.length_append, List.length_singleton]
        omega
  rw [hold, hb, holding]

lemma run_awaiting (hr : book.needsResync = false) (hs : book.hasSnapshot = false)
    (hb : book.buffered.length ≤ max book.bufferLimit 1) (batches : List DeltaBatch) :
    book.answers (batches.map .batch) = batches.map (fun _ => .taken (.ok .buffered)) ∧
      book.run (batches.map .batch) =
        book.holding (newest book.bufferLimit (book.buffered ++ batches)) := by
  induction batches generalizing book with
  | nil =>
    have hn : book.buffered = newest book.bufferLimit book.buffered :=
      eq_newest List.suffix_rfl (Nat.min_eq_left hb).symm
    refine ⟨rfl, ?_⟩
    rw [List.append_nil, ← hn]
    rfl
  | cons batch rest ih =>
    set held := newest book.bufferLimit (book.buffered ++ [batch]) with hheld
    have hp : book.perform (.batch batch) = (.taken (.ok .buffered), book.holding held) := by
      rw [perform, applyBatch_of_awaiting hr hs, hold_eq hb]
      rfl
    have hl : held.length ≤ max book.bufferLimit 1 := by
      rw [hheld, length_newest]
      exact Nat.min_le_right _ _
    obtain ⟨hq, hw⟩ := @ih (book.holding held) hr hs hl
    constructor
    · rw [List.map_cons, List.map_cons, answers, answer, after, hp, hq]
    · have hn : newest book.bufferLimit (held ++ rest) =
          newest book.bufferLimit (book.buffered ++ batch :: rest) := by
        rw [hheld, newest_append, List.append_assoc, List.singleton_append]
      rw [List.map_cons, run_cons, after, hp, hw, ← hn]
      rfl

/-! A replay is a delivery. -/

lemma advance_buffered (book : OrderBook) (batch : DeltaBatch) (buffered : List DeltaBatch) :
    (book.holding buffered).advance batch =
      ((book.advance batch).1, (book.advance batch).2.holding buffered) := by
  cases hj : judge book.policy book.nonce batch with
  | due =>
    have hw : (book.holding buffered).write batch = (book.write batch).holding buffered :=
      write_buffered book batch buffered
    rw [advance_due hj, ← hw]
    exact advance_due hj
  | stale =>
    rw [advance_stale hj]
    exact advance_stale hj
  | refused reason =>
    rw [advance_refused hj]
    exact advance_refused hj

lemma replay_eq_deliver (hr : book.needsResync = false) (hs : book.hasSnapshot = true)
    (count : Nat) (batches : List DeltaBatch) :
    let delivered := (book.holding []).deliver batches
    (book.replay count batches).1 =
        delivered.1.map (fun outcomes => count + outcomes.count .applied) ∧
      (book.replay count batches).2.holding [] = delivered.2 := by
  dsimp only
  -- A replay keeps the unread batches in the book, a delivery runs on a book that holds none back.
  induction batches generalizing book count with
  | nil => exact ⟨rfl, rfl⟩
  | cons batch rest ih =>
    have ha : (book.holding []).applyBatch batch =
        ((book.advance batch).1, (book.advance batch).2.holding []) := by
      rw [← advance_buffered]
      exact applyBatch_of_synced hr hs
    cases hj : judge book.policy book.nonce batch with
    | due =>
      rw [advance_due hj] at ha
      obtain ⟨hc, hb⟩ := ih ((write_needsResync book batch).trans hr)
        ((write_hasSnapshot book batch).trans hs) (count + 1)
      rw [replay_cons_due hj, deliver_cons_ok ha]
      refine ⟨?_, hb⟩
      rw [hc]
      cases (((book.write batch).holding []).deliver rest).1 with
      | error fault => rfl
      | ok outcomes =>
        simp only [Except.map, List.count_cons_self]
        congr 1
        omega
    | stale =>
      rw [advance_stale hj] at ha
      obtain ⟨hc, hb⟩ := ih hr hs count
      rw [replay_cons_stale hj, deliver_cons_ok ha]
      refine ⟨?_, hb⟩
      rw [hc]
      cases ((book.holding []).deliver rest).1 with
      | error fault => rfl
      | ok outcomes => simp [Except.map]
    | refused reason =>
      rw [advance_refused hj] at ha
      rw [replay_cons_refused hj, deliver_cons_error ha]
      exact ⟨rfl, rfl⟩

/-- Batches that a new book receives are all held back, of which it keeps the newest, as many as its
limit allows and one at least. A snapshot then gives the same book and the same result as if the
snapshot had come first and the batches that were kept had followed up to the first fault. -/
theorem held_back_then_snapshot (symbol : String) (policy : SequencePolicy)
    (hp : policy ≠ .unsequenced) (bufferLimit : Nat) (batches : List DeltaBatch)
    (bids asks : List Level) (sequence : Option Nat) :
    let start := new symbol policy bufferLimit
    let held := start.run (batches.map .batch)
    let replayed := held.applySnapshot bids asks sequence
    let delivered := (start.applySnapshot bids asks sequence).2.deliver held.buffered
    start.answers (batches.map .batch) = batches.map (fun _ => .taken (.ok .buffered)) ∧
      held.buffered <:+ batches ∧
      held.buffered.length = min batches.length (max bufferLimit 1) ∧
      (start.applySnapshot bids asks sequence).1 = .ok 0 ∧
      replayed.1 = delivered.1.map (·.count .applied) ∧
      replayed.2.holding [] = delivered.2 := by
  intro start held replayed delivered
  obtain ⟨ha, hh⟩ : start.answers (batches.map .batch) = _ ∧
      held = start.holding (newest bufferLimit batches) :=
    run_awaiting rfl rfl (Nat.zero_le _) batches
  have hb : held.buffered = newest bufferLimit batches := by rw [hh, holding]
  have hs : start.applySnapshot bids asks sequence =
      (.ok 0, (held.restart bids asks sequence).holding []) := by
    rw [applySnapshot_of_sequenced hp, hh]
    rfl
  have hr : replayed = (held.restart bids asks sequence).replay 0 held.buffered := by
    apply applySnapshot_of_sequenced
    rw [hh]
    exact hp
  have hd : delivered =
      ((held.restart bids asks sequence).holding []).deliver held.buffered := by
    change (start.applySnapshot bids asks sequence).2.deliver held.buffered = _
    rw [hs]
  obtain ⟨hc, he⟩ := replay_eq_deliver (rfl : (held.restart bids asks sequence).needsResync = false)
    rfl 0 held.buffered
  rw [← hr, ← hd] at hc he
  refine ⟨ha, hb ▸ newest_suffix bufferLimit batches, hb ▸ length_newest bufferLimit batches,
    congrArg Prod.fst hs, ?_, he⟩
  rw [hc]
  simp only [Nat.zero_add]

/-- The oldest of three batches makes way, the second is replayed, and the third leaves a gap. -/
theorem held_back_then_gap :
    let numbered := fun sequence => (⟨none, some sequence, none, []⟩ : DeltaBatch)
    let batches := [numbered 4, numbered 6, numbered 9]
    let start := new "ETH/USDT" .strict 2
    let held := start.run (batches.map .batch)
    let replayed := held.applySnapshot [] [] (some 5)
    let delivered := (start.applySnapshot [] [] (some 5)).2.deliver held.buffered
    SequencePolicy.strict ≠ .unsequenced ∧
      held.buffered = [numbered 6, numbered 9] ∧
      replayed.1 = .error (.outOfSync ⟨"ETH/USDT", .gap 7 9⟩) ∧
      replayed.2.nonce = some 6 ∧
      replayed.1 = delivered.1.map (·.count .applied) ∧
      replayed.2.holding [] = delivered.2 :=
  have h := held_back_then_snapshot "ETH/USDT" .strict (by decide) 2
    [⟨none, some 4, none, []⟩, ⟨none, some 6, none, []⟩, ⟨none, some 9, none, []⟩] [] [] (some 5)
  ⟨by decide, rfl, rfl, rfl, h.2.2.2.2.1, h.2.2.2.2.2⟩

end MarketFeed.OrderBook
