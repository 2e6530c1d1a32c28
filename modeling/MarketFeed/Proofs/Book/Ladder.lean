import MarketFeed.Book.Level
import MarketFeed.Proofs.Decimal.Value

/-!
# Ladders as price maps

A price map gives an amount at some numbers and none at all others. A ladder stands for the map of
its levels. In an ordered ladder, writing a level is writing at one point of the map, and the ladder
stays ordered.
-/

namespace MarketFeed

/-- Amounts by the value of their price. -/
abbrev PriceMap := ℚ → Option Decimal

namespace PriceMap

def empty : PriceMap := fun _ => none

/-- Sets the amount at a price. A zero of any scale clears the price. -/
def write (prices : PriceMap) (price amount : Decimal) : PriceMap :=
  Function.update prices price.value (if amount.value = 0 then none else some amount)

def writeLevels (prices : PriceMap) (levels : List Level) : PriceMap :=
  levels.foldl (fun prices level => prices.write level.price level.amount) prices

end PriceMap

namespace Level

/-- The amount at a price of the given value. -/
def amountAt (levels : List Level) : PriceMap :=
  fun value => (levels.find? (·.price.value = value)).map (·.amount)

/-- Prices ascend strictly by value, and no amount is zero. -/
structure Ordered (levels : List Level) : Prop where
  ascending : levels.Pairwise fun a b => a.price.value < b.price.value
  nonzero : ∀ level ∈ levels, level.amount.value ≠ 0

variable {levels rest : List Level} {level : Level} {price amount : Decimal} {value : ℚ}

lemma amountAt_cons (level : Level) (rest : List Level) (value : ℚ) :
    amountAt (level :: rest) value =
      if level.price.value = value then some level.amount else amountAt rest value := by
  by_cases h : level.price.value = value <;> simp [amountAt, h]

lemma amountAt_eq_none (h : ∀ level ∈ levels, level.price.value ≠ value) :
    amountAt levels value = none := by
  have hf : levels.find? (·.price.value = value) = none := by
    rw [List.find?_eq_none]
    intro level hm
    simpa using h level hm
  rw [amountAt, hf, Option.map_none]

lemma Ordered.nil : Ordered [] := ⟨List.Pairwise.nil, fun _ h => absurd h List.not_mem_nil⟩

lemma ordered_cons : Ordered (level :: rest) ↔
    (∀ other ∈ rest, level.price.value < other.price.value) ∧ level.amount.value ≠ 0 ∧
      Ordered rest := by
  constructor
  · rintro ⟨ha, hn⟩
    rw [List.pairwise_cons] at ha
    rw [List.forall_mem_cons] at hn
    exact ⟨ha.1, hn.1, ha.2, hn.2⟩
  · rintro ⟨hl, hz, ha, hn⟩
    exact ⟨List.pairwise_cons.mpr ⟨hl, ha⟩, List.forall_mem_cons.mpr ⟨hz, hn⟩⟩

/-- In order, a level is what the map shows at its price. -/
lemma Ordered.amountAt_eq_some (h : Ordered levels) : amountAt levels value = some amount ↔
    ∃ level ∈ levels, level.price.value = value ∧ level.amount = amount := by
  induction levels with
  | nil => simp [amountAt]
  | cons head rest ih =>
    obtain ⟨hl, -, hr⟩ := ordered_cons.mp h
    rw [amountAt_cons, List.exists_mem_cons_iff]
    by_cases hv : head.price.value = value
    · have hrest : ¬ ∃ level ∈ rest, level.price.value = value ∧ level.amount = amount := by
        rintro ⟨level, hm, hp, -⟩
        exact (hl level hm).ne (hv.trans hp.symm)
      simp [hv, hrest]
    · rw [if_neg hv, ih hr]
      simp [hv]

lemma write_nil : write price amount [] = if amount.value = 0 then [] else [⟨price, amount⟩] := by
  simp only [write, Decimal.isZero_iff]

lemma write_cons_of_lt (h : price.value < level.price.value) :
    write price amount (level :: rest) =
      if amount.value = 0 then level :: rest else ⟨price, amount⟩ :: level :: rest := by
  rw [← Decimal.compare_eq_lt] at h
  simp only [write, h, Decimal.isZero_iff]

lemma write_cons_of_eq (h : price.value = level.price.value) :
    write price amount (level :: rest) =
      if amount.value = 0 then rest else ⟨level.price, amount⟩ :: rest := by
  rw [← Decimal.compare_eq_eq] at h
  simp only [write, h, Decimal.isZero_iff]

lemma write_cons_of_gt (h : level.price.value < price.value) :
    write price amount (level :: rest) = level :: write price amount rest := by
  rw [← Decimal.compare_eq_gt] at h
  simp only [write, h]

/-- A write leaves no price on the ladder but its own and those that were there. -/
lemma price_of_mem_write (h : level ∈ write price amount levels) :
    level.price.value = price.value ∨ level ∈ levels := by
  induction levels with
  | nil =>
    rw [write_nil] at h
    split_ifs at h
    · exact Or.inr h
    · exact Or.inl (by rw [List.mem_singleton.mp h])
  | cons head rest ih =>
    rcases lt_trichotomy price.value head.price.value with hc | hc | hc
    · rw [write_cons_of_lt hc] at h
      split_ifs at h
      · exact Or.inr h
      · exact (List.mem_cons.mp h).imp_left fun he => by rw [he]
    · rw [write_cons_of_eq hc] at h
      split_ifs at h
      · exact Or.inr (List.mem_cons_of_mem _ h)
      · exact (List.mem_cons.mp h).imp (fun he => by rw [he, hc]) (List.mem_cons_of_mem _)
    · rw [write_cons_of_gt hc] at h
      rcases List.mem_cons.mp h with rfl | hm
      · exact Or.inr List.mem_cons_self
      · exact (ih hm).imp_right (List.mem_cons_of_mem _)

lemma Ordered.write (h : Ordered levels) (price amount : Decimal) :
    Ordered (write price amount levels) := by
  induction levels with
  | nil =>
    rw [write_nil]
    split_ifs with hz
    · exact Ordered.nil
    · exact ordered_cons.mpr ⟨fun _ hm => absurd hm List.not_mem_nil, hz, Ordered.nil⟩
  | cons head rest ih =>
    obtain ⟨hl, hn, hr⟩ := ordered_cons.mp h
    rcases lt_trichotomy price.value head.price.value with hc | hc | hc
    · rw [write_cons_of_lt hc]
      split_ifs with hz
      · exact h
      · have hfirst : ∀ other ∈ head :: rest, price.value < other.price.value :=
          List.forall_mem_cons.mpr ⟨hc, fun other hm => hc.trans (hl other hm)⟩
        exact ordered_cons.mpr ⟨hfirst, hz, h⟩
    · rw [write_cons_of_eq hc]
      split_ifs with hz
      · exact hr
      · exact ordered_cons.mpr ⟨hl, hz, hr⟩
    · rw [write_cons_of_gt hc]
      have hfirst : ∀ other ∈ Level.write price amount rest,
          head.price.value < other.price.value := by
        intro other hm
        rcases price_of_mem_write hm with he | hm
        · rwa [he]
        · exact hl other hm
      exact ordered_cons.mpr ⟨hfirst, hn, ih hr⟩

lemma amountAt_write (h : Ordered levels) (price amount : Decimal) :
    amountAt (write price amount levels) = (amountAt levels).write price amount := by
  funext value
  simp only [PriceMap.write, Function.update_apply]
  induction levels with
  | nil =>
    rw [write_nil]
    by_cases hz : amount.value = 0 <;> simp [amountAt, hz, eq_comm]
  | cons head rest ih =>
    obtain ⟨hl, -, hr⟩ := ordered_cons.mp h
    rcases lt_trichotomy price.value head.price.value with hc | hc | hc
    · -- Every level there is lies above the new price.
      have hnone : amountAt (head :: rest) price.value = none := by
        apply amountAt_eq_none
        exact List.forall_mem_cons.mpr ⟨hc.ne', fun other hm => (hc.trans (hl other hm)).ne'⟩
      rw [write_cons_of_lt hc]
      by_cases hz : amount.value = 0
      · by_cases hv : value = price.value <;> simp [hz, hv, hnone]
      · simp [hz, amountAt_cons ⟨price, amount⟩, eq_comm]
    · have hnone : amountAt rest head.price.value = none :=
        amountAt_eq_none fun other hm => (hl other hm).ne'
      rw [write_cons_of_eq hc]
      by_cases hv : value = price.value
      · by_cases hz : amount.value = 0 <;> simp [hz, hv, hnone, amountAt_cons, hc]
      · have hh : head.price.value ≠ value := fun he => hv (he.symm.trans hc.symm)
        by_cases hz : amount.value = 0 <;> simp [hz, hv, amountAt_cons, hh]
    · rw [write_cons_of_gt hc, amountAt_cons, amountAt_cons, ih hr]
      by_cases hv : value = price.value
      · simp [hv, hc.ne]
      · simp [hv]

end Level

namespace Ladder

def prices (ladder : Ladder) : PriceMap := Level.amountAt ladder.levels

variable {ladder : Ladder}

lemma get?_eq_prices (ladder : Ladder) (price : Decimal) :
    ladder.get? price = ladder.prices price.value := by
  have hp : (fun level : Level => level.price.sameValue price) =
      fun level : Level => decide (level.price.value = price.value) := by
    funext level
    rw [Bool.eq_iff_iff, Decimal.sameValue_iff, decide_eq_true_iff]
  rw [get?, prices, Level.amountAt, hp]

lemma ordered_set (h : Level.Ordered ladder.levels) (price amount : Decimal) :
    Level.Ordered (ladder.set price amount).levels := h.write price amount

lemma prices_set (h : Level.Ordered ladder.levels) (price amount : Decimal) :
    (ladder.set price amount).prices = ladder.prices.write price amount :=
  Level.amountAt_write h price amount

/-- Setting levels one after the other, on any ordered ladder. -/
lemma setAll_spec (ladder : Ladder) (h : Level.Ordered ladder.levels) (levels : List Level) :
    let after := levels.foldl (fun ladder level => ladder.set level.price level.amount) ladder
    after.side = ladder.side ∧ Level.Ordered after.levels ∧
      after.prices = ladder.prices.writeLevels levels := by
  dsimp only
  induction levels generalizing ladder with
  | nil => exact ⟨rfl, h, rfl⟩
  | cons level rest ih =>
    obtain ⟨hs, ho, hp⟩ := ih _ (ordered_set h level.price level.amount)
    refine ⟨hs, ho, ?_⟩
    rw [prices_set h] at hp
    exact hp

lemma replace_spec (ladder : Ladder) (levels : List Level) :
    (ladder.replace levels).side = ladder.side ∧ Level.Ordered (ladder.replace levels).levels ∧
      (ladder.replace levels).prices = PriceMap.empty.writeLevels levels :=
  setAll_spec (empty ladder.side) Level.Ordered.nil levels

lemma bestFirst_bid (hs : ladder.side = .bid) : ladder.bestFirst = ladder.levels.reverse := by
  rw [bestFirst, hs]

lemma bestFirst_ask (hs : ladder.side = .ask) : ladder.bestFirst = ladder.levels := by
  rw [bestFirst, hs]

lemma mem_bestFirst {level : Level} : level ∈ ladder.bestFirst ↔ level ∈ ladder.levels := by
  rw [bestFirst]
  cases ladder.side with
  | bid => exact List.mem_reverse
  | ask => exact Iff.rfl

/-- The levels that are listed are those of the map. -/
lemma prices_eq_some (h : Level.Ordered ladder.levels) {value : ℚ} {amount : Decimal} :
    ladder.prices value = some amount ↔
      ∃ level ∈ ladder.bestFirst, level.price.value = value ∧ level.amount = amount := by
  rw [prices, h.amountAt_eq_some]
  simp only [mem_bestFirst]

lemma bestFirst_descending (h : Level.Ordered ladder.levels) (hs : ladder.side = .bid) :
    ladder.bestFirst.Pairwise fun a b => b.price.value < a.price.value := by
  rw [bestFirst_bid hs, List.pairwise_reverse]
  exact h.ascending

lemma bestFirst_ascending (h : Level.Ordered ladder.levels) (hs : ladder.side = .ask) :
    ladder.bestFirst.Pairwise fun a b => a.price.value < b.price.value := by
  rw [bestFirst_ask hs]
  exact h.ascending

end Ladder

end MarketFeed
