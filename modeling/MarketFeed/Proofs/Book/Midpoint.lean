import MarketFeed.Book.OrderBook
import MarketFeed.Proofs.Decimal.Halving

/-!
# Spread and midpoint

The prices that are derived from the best bid and the best ask, where the bid is positive and not
above the ask. The midpoint is half of a rounded sum: it overflows together with the sum, and the
digit that the sum loses can put it outside of two prices that differ by less than this digit.
-/

namespace MarketFeed.OrderBook

variable {book : OrderBook} {bid ask : Level} {sum mid : Decimal}

lemma spread_of_best (hb : book.bestBid? = some bid) (ha : book.bestAsk? = some ask) :
    book.spread = (ask.price.sub bid.price).map some := by
  rw [spread, fromBest, ha, hb]
  rfl

lemma midPrice_of_best (hb : book.bestBid? = some bid) (ha : book.bestAsk? = some ask) :
    book.midPrice = (ask.price.add bid.price >>= (·.div .two)).map some := by
  rw [midPrice, fromBest, ha, hb]
  rfl

/-- The midpoint is the half of the sum of the two prices. -/
lemma midPrice_eq_ok (hb : book.bestBid? = some bid) (ha : book.bestAsk? = some ask)
    (hsum : ask.price.add bid.price = .ok sum) (hpos : 0 < sum.value) :
    ∃ mid, book.midPrice = .ok (some mid) ∧ Decimal.Halves sum mid := by
  obtain ⟨mid, hdiv, hmid⟩ := Decimal.div_two hpos
  refine ⟨mid, ?_, hmid⟩
  rw [midPrice_of_best hb ha, hsum]
  change (sum.div .two).map some = .ok (some mid)
  rw [hdiv]
  rfl

/-- The spread of a book that is not crossed is never negative and never overflows. The midpoint
overflows exactly where the sum of the two prices rounds to the bound of the coefficients. Otherwise
it lies between the prices exactly if the rounded sum lies between their doubles, as it does if the
sum loses no digit or the prices are half a unit of its last place apart. -/
theorem midpoint_between_unless_sum_rounded (hb : book.bestBid? = some bid)
    (ha : book.bestAsk? = some ask) (hpos : 0 < bid.price.value)
    (hle : bid.price.value ≤ ask.price.value) :
    (∃ spread, book.spread = .ok (some spread) ∧ 0 ≤ spread.value) ∧
    (book.midPrice = .error .addition ↔
      (Decimal.limit : ℚ) - 1 / 2 ≤ ask.price.value + bid.price.value) ∧
    (ask.price.value + bid.price.value < (Decimal.limit : ℚ) - 1 / 2 → ∃ sum mid,
      ask.price.add bid.price = .ok sum ∧ book.midPrice = .ok (some mid) ∧
      |mid.value - (ask.price.value + bid.price.value) / 2| ≤ 3 / (4 * 10 ^ sum.scale) ∧
      ((bid.price.value ≤ mid.value ∧ mid.value ≤ ask.price.value) ↔
        (2 * bid.price.value ≤ sum.value ∧ sum.value ≤ 2 * ask.price.value)) ∧
      (ask.price.sumCoefficient bid.price < Decimal.limit ∨
          1 / (2 * 10 ^ sum.scale) ≤ ask.price.value - bid.price.value →
        bid.price.value ≤ mid.value ∧ mid.value ≤ ask.price.value)) := by
  have haskpos : 0 < ask.price.value := hpos.trans_le hle
  have hoverflow := Decimal.add_overflow_iff haskpos hpos
  refine ⟨?_, ?_, fun hbelow => ?_⟩
  · obtain ⟨spread, hsub, hnonneg⟩ := Decimal.sub_of_le hpos hle
    refine ⟨spread, ?_, hnonneg⟩
    rw [spread_of_best hb ha, hsub]
    rfl
  · rw [← hoverflow]
    cases hadd : ask.price.add bid.price with
    | error overflow =>
      rw [midPrice_of_best hb ha, hadd]
      obtain rfl := Decimal.overflow_of_add hadd
      exact iff_of_true rfl rfl
    | ok sum =>
      obtain ⟨mid, hmid, -⟩ :=
        midPrice_eq_ok hb ha hadd (Decimal.add_pos haskpos hpos hadd)
      rw [hmid]
      simp
  · cases hadd : ask.price.add bid.price with
    | error overflow =>
      obtain rfl := Decimal.overflow_of_add hadd
      exact absurd (hoverflow.mp hadd) hbelow.not_ge
    | ok sum =>
      obtain ⟨mid, hmid, hhalves⟩ :=
        midPrice_eq_ok hb ha hadd (Decimal.add_pos haskpos hpos hadd)
      refine ⟨sum, mid, rfl, hmid, Decimal.middle_near haskpos hpos hadd hhalves,
        Decimal.middle_between_iff haskpos hpos hadd hhalves, ?_⟩
      rintro (hfits | hapart)
      · exact Decimal.middle_between_of_fits haskpos hpos hadd hhalves hle hfits
      · exact Decimal.middle_between_of_apart haskpos hpos hadd hhalves hapart

/-- The prices 99.99 and 100 have the midpoint 99.995. -/
theorem midpoint_of_neighbouring_prices :
    let bid : Level := ⟨⟨9999, 2, by decide, by decide⟩, .two⟩
    let ask : Level := ⟨⟨100, 0, by decide, by decide⟩, .two⟩
    let book := ((new "BTC/USDT" .unsequenced 100).applySnapshot [bid] [ask] none).2
    book.bestBid? = some bid ∧ book.bestAsk? = some ask ∧ 0 < bid.price.value ∧
      bid.price.value ≤ ask.price.value ∧
      book.midPrice = .ok (some ⟨999950, 4, by decide, by decide⟩) ∧
      ∃ mid, book.midPrice = .ok (some mid) ∧ bid.price.value ≤ mid.value ∧
        mid.value ≤ ask.price.value := by
  intro bid ask book
  have hb : book.bestBid? = some bid := by decide +kernel
  have ha : book.bestAsk? = some ask := by decide +kernel
  have hpos : 0 < bid.price.value := (Decimal.isPositive_iff _).mp rfl
  have hle : bid.price.value ≤ ask.price.value := by norm_num [bid, ask, Decimal.value]
  have hbelow : ask.price.value + bid.price.value < (Decimal.limit : ℚ) - 1 / 2 := by
    norm_num [bid, ask, Decimal.value, Decimal.limit]
  obtain ⟨-, -, hmiddle⟩ := midpoint_between_unless_sum_rounded hb ha hpos hle
  obtain ⟨sum, mid, -, hmid, -, -, hbetween⟩ := hmiddle hbelow
  exact ⟨hb, ha, hpos, hle, by decide +kernel, mid, hmid, hbetween (.inl (by decide +kernel))⟩

/-- With one price on both sides the midpoint can be another price, which is above both. With the
largest price on both sides it overflows. -/
theorem midpoint_misses_locked_prices :
    let locked := fun price : Decimal =>
      ((new "BTC/USDT" .unsequenced 100).applySnapshot [⟨price, .two⟩] [⟨price, .two⟩] none).2
    let long : Decimal := ⟨79228162514264337593543950334, 1, by decide, by decide⟩
    let largest : Decimal := ⟨79228162514264337593543950335, 0, by decide, by decide⟩
    let view := fun book : OrderBook =>
      (book.bestBid?.map (·.price), book.bestAsk?.map (·.price), book.spread, book.midPrice)
    let mid : Decimal := ⟨79228162514264337593543950335, 1, by decide, by decide⟩
    let zero : Decimal := ⟨0, 1, by decide, by decide⟩
    view (locked long) = (some long, some long, .ok (some zero), .ok (some mid)) ∧
      0 < long.value ∧ long.value < mid.value ∧ 0 < largest.value ∧
      view (locked largest) =
        (some largest, some largest, .ok (some .zero), .error .addition) := by
  intro locked long largest view mid zero
  refine ⟨by decide +kernel, ?_, ?_, ?_, by decide +kernel⟩
  · exact (Decimal.isPositive_iff _).mp rfl
  · exact (Decimal.compare_eq_lt _ _).mp (by decide +kernel)
  · exact (Decimal.isPositive_iff _).mp rfl

end MarketFeed.OrderBook
