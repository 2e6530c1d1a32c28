import MarketFeed.Proofs.Order.Run

/-!
# Accounting of orders

What is left of an order agrees with its amount and what is filled, and its cost and average with
its trades. An update that brings no trades keeps cost, average and trades together, and takes the
rest from the larger filled amount; a fill recomputes all of it.
-/

namespace MarketFeed

namespace Order

/-- The numbers of an order agree with each other, in value. -/
structure Consistent (order : Order) : Prop where
  balanced : ∀ amount, order.amount = some amount → ∃ difference remaining,
    amount.sub order.filled = .ok difference ∧ order.remaining = some remaining ∧
      remaining.value = max difference.value 0
  priced : order.trades ≠ [] → ∃ cost amount,
    Decimal.sum (order.trades.map (·.cost)) = .ok cost ∧
      Decimal.sum (order.trades.map (·.amount)) = .ok amount ∧ order.cost.value = cost.value ∧
      (0 < amount.value → ∃ quotient average, order.cost.div amount = .ok quotient ∧
        order.average = some average ∧ average.value = quotient.value)

variable {order newer older merged filled : Order} {fill : Trade}

lemma remainder_ok {amount filled left : Decimal} (h : remainder amount filled = .ok left) :
    ∃ difference, amount.sub filled = .ok difference ∧ left.value = max difference.value 0 := by
  rw [remainder] at h
  cases hd : amount.sub filled with
  | error overflow =>
    rw [hd] at h
    exact absurd h (by simp [bind, Except.bind])
  | ok difference =>
    rw [hd] at h
    obtain rfl : difference.max .zero = left := Except.ok.inj h
    exact ⟨difference, rfl, by simp⟩

lemma Consistent.of_merged (hn : newer.Consistent) (ho : older.Consistent)
    (h : Merged newer older merged) : merged.Consistent := by
  cases h with
  | reported => exact ⟨hn.balanced, hn.priced⟩
  | unbounded _ _ ha =>
    refine ⟨fun amount hamount => ?_, ho.priced⟩
    have hnone : newer.amount = some amount := hamount
    exact absurd (ha.symm.trans hnone) (by simp)
  | @bounded amount left _ _ ha hleft =>
    refine ⟨?_, ho.priced⟩
    intro total htotal
    obtain rfl : amount = total := Option.some.inj (ha.symm.trans htotal)
    obtain ⟨difference, hd, hv⟩ := remainder_ok hleft
    exact ⟨difference, left, hd, rfl, hv⟩

lemma Consistent.of_filled (h : Filled order fill filled) : filled.Consistent := by
  constructor
  · intro amount hamount
    obtain ⟨left, hl, hr, -⟩ := h.bounded amount (h.amount.symm.trans hamount)
    obtain ⟨difference, hd, hv⟩ := remainder_ok hl
    exact ⟨difference, left, hd, hr, hv⟩
  · intro _
    obtain ⟨amount, ht, hq⟩ := h.totals
    obtain ⟨hcost, hamount⟩ := sum_of_totals ht
    refine ⟨filled.cost, amount, hcost, hamount, rfl, fun hpositive => ?_⟩
    obtain ⟨quotient, hdiv, haverage⟩ := hq ((Decimal.isPositive_iff amount).mpr hpositive)
    exact ⟨quotient, quotient, hdiv, haverage, rfl⟩

/-- A new order has its whole amount left. -/
lemma consistent_new (id symbol : String) (side : TradeSide) {amount price : Option Decimal}
    (h : ∀ total, amount = some total → 0 ≤ total.value) :
    (Order.new id symbol side amount price).Consistent := by
  refine ⟨fun total ht => ?_, fun hn => absurd rfl hn⟩
  obtain ⟨difference, hd, hv⟩ := total.sub_zero_ok
  exact ⟨difference, total, hd, ht, by rw [hv, max_eq_left (h total ht)]⟩

end Order

namespace OrderCache

/-- As long as no operation on decimals overflows, updates that are consistent and fills of any
kind leave every order consistent. -/
theorem run_consistent (limit pendingLimit : Nat) (placement : Placement)
    (operations : List OrderOperation) :
    let start := new limit pendingLimit placement
    (∀ order, .upsert order ∈ operations → order.Consistent) →
    (∀ answer ∈ start.answers operations, answer.isOk = true) →
    ∀ order ∈ (start.run operations).records, order.Consistent := by
  intro start hc hok
  have hempty : ∀ order ∈ start.records, order.Consistent := by
    intro order hm
    exact absurd hm (by simp [start, records, new, KeyedCache.new, KeyedCache.records])
  refine forall_records_run (KeyedCache.packed_new limit placement) hempty hok hc ?_ ?_
  · exact fun newer older merged hn ho hm => hn.of_merged ho hm
  · exact fun order fill filled _ hf => .of_filled hf

/-- One order is filled and then updated, which keeps its trade. The other one comes with a trade of
its own and takes a fill that was parked for it, which closes it. -/
theorem updated_and_filled_orders_consistent :
    let one : Decimal := ⟨1, 0, by decide, by decide⟩
    let fifty : Decimal := ⟨50, 0, by decide, by decide⟩
    let fill := fun id name => { Trade.blank with
      id := some id, order := some name, symbol := "BTC/USDT", price := fifty, amount := one
      cost := fifty }
    let order := fun id => Order.new id "BTC/USDT" .buy (some .two) none
    let reported := { order "1" with filled := one, remaining := some one }
    let traded := { order "2" with
      filled := one, remaining := some one, cost := fifty, average := some fifty
      trades := [fill "t3" "2"] }
    let operations : List OrderOperation := [.fill (fill "t1" "2"), .upsert (order "1"),
      .fill (fill "t2" "1"), .upsert reported, .upsert traded]
    let start := new 10 10 .keep
    (∀ order, .upsert order ∈ operations → order.Consistent) ∧
      (∀ answer ∈ start.answers operations, answer.isOk = true) ∧
      (start.run operations).records.map (fun order => (order.id, order.trades.length,
          order.filled, order.remaining.map Decimal.value, order.status)) =
        [("1", 1, one, some 1, .live), ("2", 2, .two, some 0, .closed)] ∧
      ∀ order ∈ (start.run operations).records, order.Consistent := by
  intro one fifty fill order reported traded operations start
  have hone : one.value = 1 := by norm_num [one, Decimal.value]
  have hleft : ∀ amount, some Decimal.two = some amount → amount.sub one = .ok one := by
    rintro _ ⟨rfl⟩
    decide +kernel
  have hc : ∀ order, .upsert order ∈ operations → order.Consistent := by
    intro order hm
    simp only [operations, List.mem_cons, reduceCtorEq, OrderOperation.upsert.injEq,
      List.not_mem_nil, or_false, false_or] at hm
    rcases hm with rfl | rfl | rfl
    · refine Order.consistent_new _ _ _ ?_
      rintro _ ⟨rfl⟩
      norm_num [Decimal.value, Decimal.two]
    · exact ⟨fun amount ha => ⟨one, one, hleft amount ha, rfl, by norm_num [hone]⟩,
        fun hn => absurd rfl hn⟩
    · refine ⟨fun amount ha => ⟨one, one, hleft amount ha, rfl, by norm_num [hone]⟩, fun _ => ?_⟩
      exact ⟨fifty, one, by decide +kernel, by decide +kernel, rfl, fun _ =>
        ⟨fifty, fifty, by decide +kernel, rfl, rfl⟩⟩
  have hok : ∀ answer ∈ start.answers operations, answer.isOk = true := by decide +kernel
  exact ⟨hc, hok, by decide +kernel, run_consistent 10 10 .keep operations hc hok⟩

end OrderCache

end MarketFeed
