import MarketFeed.Book.Checksum
import MarketFeed.Proofs.Book.Ladder
import MarketFeed.Proofs.Decimal.Normal
import Mathlib.Data.List.Range
import Mathlib.Logic.Function.Basic

/-!
# What a checksum sees

A checksum covers the best levels of the two sides of a book, each of them once and in the order of
its layout. It sees prices and amounts as numbers: neither how they were written nor what was on the
ladders before.
-/

namespace MarketFeed

/-- Price and amount as numbers. -/
def Level.values (level : Level) : ℚ × ℚ := (level.price.value, level.amount.value)

/-- What is done to a ladder. -/
inductive LadderChange where
  | set (price amount : Decimal)
  | replace (levels : List Level)

namespace Ladder

def change (ladder : Ladder) : LadderChange → Ladder
  | .set price amount => ladder.set price amount
  | .replace levels => ladder.replace levels

/-- The ladder that changes leave on a side. -/
def ofChanges (side : BookSide) (changes : List LadderChange) : Ladder :=
  changes.foldl change (empty side)

/-- The best levels as numbers. -/
def shown (ladder : Ladder) (depth : Nat) : List (ℚ × ℚ) := (ladder.top depth).map Level.values

lemma ofChanges_spec (side : BookSide) (changes : List LadderChange) :
    (ofChanges side changes).side = side ∧ Level.Ordered (ofChanges side changes).levels := by
  induction changes using List.reverseRecOn with
  | nil => exact ⟨rfl, Level.Ordered.nil⟩
  | append_singleton changes last ih =>
    rw [ofChanges, List.foldl_concat]
    cases last with
    | set price amount => exact ⟨ih.1, ordered_set ih.2 price amount⟩
    | replace levels =>
      obtain ⟨hside, hordered, -⟩ := replace_spec (ofChanges side changes) levels
      exact ⟨hside.trans ih.1, hordered⟩

end Ladder

/-- Levels of two sides in the order of a layout, those of a rank below `depth`. By rank, a side
that has run out is passed over. -/
def ChecksumLayout.arrange {α : Type} (layout : ChecksumLayout) (depth : Nat) (bids asks : List α) :
    List α :=
  match layout with
  | interleaved =>
    (List.range depth).flatMap fun rank => bids[rank]?.toList ++ asks[rank]?.toList
  | bidsThenAsks => bids.take depth ++ asks.take depth

namespace ChecksumFormat

open ChecksumLayout (arrange)

lemma interleave_nil (bids : List Level) : interleave bids [] = bids := by
  cases bids <;> rfl

lemma interleave_perm (bids asks : List Level) : (interleave bids asks).Perm (bids ++ asks) := by
  induction bids generalizing asks with
  | nil => exact List.Perm.refl asks
  | cons bid bids ih =>
    cases asks with
    | nil => rw [interleave_nil, List.append_nil]
    | cons ask asks =>
      rw [interleave, List.cons_append]
      exact ((ih asks).cons ask |>.trans List.perm_middle.symm).cons bid

lemma arrange_interleaved (depth : Nat) (bids asks : List Level) :
    arrange .interleaved depth bids asks = interleave (bids.take depth) (asks.take depth) := by
  induction depth generalizing bids asks with
  | zero => rfl
  | succ depth ih =>
    have hnext : arrange .interleaved (depth + 1) bids asks =
        (bids[0]?.toList ++ asks[0]?.toList) ++ arrange .interleaved depth bids.tail asks.tail := by
      simp [arrange, List.range_succ_eq_map, List.flatMap_map]
    rw [hnext, ih]
    cases bids with
    | nil => cases asks <;> simp [interleave]
    | cons bid bids =>
      cases asks with
      | nil => simp [interleave_nil]
      | cons ask asks => rfl

lemma arrange_take {α : Type} (layout : ChecksumLayout) (depth : Nat) (bids asks : List α) :
    arrange layout depth (bids.take depth) (asks.take depth) = arrange layout depth bids asks := by
  cases layout with
  | interleaved =>
    apply List.flatMap_congr
    intro rank hr
    have hlt : rank < depth := List.mem_range.mp hr
    rw [List.getElem?_take_of_lt hlt, List.getElem?_take_of_lt hlt]
  | bidsThenAsks => rw [arrange, arrange, List.take_take, List.take_take, Nat.min_self]

lemma map_arrange {α β : Type} (f : α → β) (layout : ChecksumLayout) (depth : Nat)
    (bids asks : List α) :
    (arrange layout depth bids asks).map f = arrange layout depth (bids.map f) (asks.map f) := by
  cases layout with
  | interleaved => simp [arrange, List.map_flatMap, Option.toList_map]
  | bidsThenAsks => simp [arrange]

lemma covered_eq (format : ChecksumFormat) (bids asks : Ladder) : format.covered bids asks =
    arrange format.layout format.depth bids.bestFirst asks.bestFirst := by
  unfold covered
  cases format.layout with
  | interleaved => exact (arrange_interleaved format.depth bids.bestFirst asks.bestFirst).symm
  | bidsThenAsks => rfl

lemma arrange_perm (layout : ChecksumLayout) (depth : Nat) (bids asks : List Level) :
    (arrange layout depth bids asks).Perm (bids.take depth ++ asks.take depth) := by
  cases layout with
  | interleaved =>
    rw [arrange_interleaved]
    exact interleave_perm _ _
  | bidsThenAsks => exact List.Perm.refl _

/-- The covered levels as numbers are known from the best levels as numbers. -/
lemma map_values_covered (format : ChecksumFormat) (bids asks : Ladder) :
    (format.covered bids asks).map Level.values =
      arrange format.layout format.depth (bids.shown format.depth) (asks.shown format.depth) := by
  rw [covered_eq, ← arrange_take, map_arrange]
  rfl

lemma fields_factorsThrough : fields.FactorsThrough Level.values := by
  intro level other h
  obtain ⟨hprice, hamount⟩ := Prod.mk.inj h
  rw [fields, fields, (Decimal.normalize_eq_iff _ _).mpr hprice,
    (Decimal.normalize_eq_iff _ _).mpr hamount]

/-- Sides that show the same best levels have the same text to sum up. -/
lemma payload_eq {format : ChecksumFormat} {bids asks otherBids otherAsks : Ladder}
    (hbids : otherBids.shown format.depth = bids.shown format.depth)
    (hasks : otherAsks.shown format.depth = asks.shown format.depth) :
    format.payload otherBids otherAsks = format.payload bids asks := by
  obtain ⟨write, hwrite⟩ := (Function.factorsThrough_iff fields).mp fields_factorsThrough
  have hvalues : (format.covered otherBids otherAsks).map Level.values =
      (format.covered bids asks).map Level.values := by
    rw [map_values_covered, map_values_covered, hbids, hasks]
  have hfields := congrArg (List.flatMap write) hvalues
  rw [List.flatMap_map, List.flatMap_map] at hfields
  rw [payload, payload, hwrite]
  exact congrArg _ hfields

/-- On sides that any changes have left, the text to sum up lists the fields of the best levels in
the order of the layout, each level once and the better ones first. Every layout has the same
levels. Other changes that leave the same best levels, as numbers, lead to the same text and
checksum. -/
theorem checksum_sees_values (format : ChecksumFormat) (bidChanges askChanges : List LadderChange) :
    let bids := Ladder.ofChanges .bid bidChanges
    let asks := Ladder.ofChanges .ask askChanges
    let depth := format.depth
    format.payload bids asks = format.separator.intercalate
      ((arrange format.layout depth bids.bestFirst asks.bestFirst).flatMap fields) ∧
    (bids.bestFirst.Pairwise fun a b => b.price.value < a.price.value) ∧
    (asks.bestFirst.Pairwise fun a b => a.price.value < b.price.value) ∧
    (∀ layout, (arrange layout depth bids.bestFirst asks.bestFirst).Perm
      (bids.bestFirst.take depth ++ asks.bestFirst.take depth)) ∧
    ∀ otherBidChanges otherAskChanges,
      let otherBids := Ladder.ofChanges .bid otherBidChanges
      let otherAsks := Ladder.ofChanges .ask otherAskChanges
      otherBids.shown depth = bids.shown depth → otherAsks.shown depth = asks.shown depth →
        format.payload otherBids otherAsks = format.payload bids asks ∧
          format.compute otherBids otherAsks = format.compute bids asks := by
  intro bids asks depth
  obtain ⟨hbid, hbids⟩ := Ladder.ofChanges_spec .bid bidChanges
  obtain ⟨hask, hasks⟩ := Ladder.ofChanges_spec .ask askChanges
  refine ⟨?_, Ladder.bestFirst_descending hbids hbid, Ladder.bestFirst_ascending hasks hask,
    fun layout => arrange_perm layout depth _ _, ?_⟩
  · rw [payload, covered_eq]
  · intro otherBidChanges otherAskChanges otherBids otherAsks hsameBids hsameAsks
    have hpayload := payload_eq hsameBids hsameAsks
    exact ⟨hpayload, by rw [compute, compute, hpayload]⟩

/-- A bid is written with more digits and over an older one, and there is a second one below the
depth. The checksum is the same. -/
theorem rewritten_bid_keeps_checksum :
    let hundred : Decimal := ⟨100, 0, by decide, by decide⟩
    let longHundred : Decimal := ⟨1000, 1, by decide, by decide⟩
    let longTwo : Decimal := ⟨200, 2, by decide, by decide⟩
    let format := { standard with depth := 1 }
    let bids := Ladder.ofChanges .bid [.set hundred .two]
    let otherBids := Ladder.ofChanges .bid
      [.replace [⟨longHundred, hundred⟩, ⟨.two, .two⟩], .set hundred longTwo]
    let asks := Ladder.ofChanges .ask []
    (bids.top format.depth, otherBids.top format.depth) =
        ([⟨hundred, .two⟩], [⟨longHundred, longTwo⟩]) ∧
      otherBids.shown format.depth = bids.shown format.depth ∧
      format.payload otherBids asks = "100:2" ∧
      format.payload otherBids asks = format.payload bids asks ∧
      format.compute otherBids asks = format.compute bids asks := by
  intro hundred longHundred longTwo format bids otherBids asks
  have htop : (bids.top format.depth, otherBids.top format.depth) =
      ([⟨hundred, .two⟩], [⟨longHundred, longTwo⟩]) := by decide +kernel
  obtain ⟨hbids, hotherBids⟩ := Prod.mk.inj htop
  have hshown : otherBids.shown format.depth = bids.shown format.depth := by
    rw [Ladder.shown, Ladder.shown, hbids, hotherBids]
    norm_num [Level.values, Decimal.value, hundred, longHundred, longTwo, Decimal.two]
  obtain ⟨-, -, -, -, hsame⟩ := checksum_sees_values format [.set hundred .two] []
  exact ⟨htop, hshown, by decide +kernel, hsame _ [] hshown rfl⟩

end ChecksumFormat

end MarketFeed
