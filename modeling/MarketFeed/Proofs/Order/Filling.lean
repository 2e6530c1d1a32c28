import MarketFeed.Cache.Keyed
import MarketFeed.Proofs.Decimal.Attempt
import MarketFeed.Proofs.Decimal.Value

/-!
# Fills and updates of a single order

What a fill makes of an order, and what an update makes of it, unless an overflow ends them.
-/

namespace MarketFeed.Order

variable {order newer older : Order} {trade : Trade}

/-- Cost and amount of trades are summed each on its own. -/
lemma foldlM_totals {trades : List Trade} {cost amount totalCost totalAmount : Decimal}
    (h : trades.foldlM (fun (sums : Decimal × Decimal) trade => do
      return (← sums.1.add trade.cost, ← sums.2.add trade.amount)) (cost, amount) =
        (.ok (totalCost, totalAmount) : Except Decimal.Overflow _)) :
    (trades.map (·.cost)).foldlM Decimal.add cost = .ok totalCost ∧
      (trades.map (·.amount)).foldlM Decimal.add amount = .ok totalAmount := by
  induction trades generalizing cost amount with
  | nil =>
    obtain ⟨rfl, rfl⟩ := Prod.mk.inj (Except.ok.inj h)
    exact ⟨rfl, rfl⟩
  | cons trade rest ih =>
    rw [List.foldlM_cons] at h
    rw [List.map_cons, List.map_cons, List.foldlM_cons, List.foldlM_cons]
    cases hc : cost.add trade.cost with
    | error overflow =>
      rw [hc] at h
      exact absurd h (by simp [bind, Except.bind])
    | ok nextCost =>
      cases ha : amount.add trade.amount with
      | error overflow =>
        rw [hc, ha] at h
        exact absurd h (by simp [bind, Except.bind])
      | ok nextAmount =>
        rw [hc, ha] at h
        exact ih h

lemma sum_of_totals {trades : List Trade} {cost amount : Decimal}
    (h : totals trades = .ok (cost, amount)) : Decimal.sum (trades.map (·.cost)) = .ok cost ∧
      Decimal.sum (trades.map (·.amount)) = .ok amount :=
  foldlM_totals h

/-! The steps of a fill. -/

lemma recost_ok (h : recost.runOn order = (.ok (), newer)) : ∃ cost amount average,
    newer = { order with cost, average } ∧ totals order.trades = .ok (cost, amount) ∧
      (amount.isPositive = true → ∃ quotient, cost.div amount = .ok quotient ∧
        average = some quotient) ∧ (amount.isPositive = false → average = order.average) := by
  rw [recost, Attempt.runOn_bind_ok (Attempt.runOn_get _)] at h
  obtain ⟨⟨cost, amount⟩, ht, h⟩ := Attempt.runOn_of_bind_eq_ok h
  rw [Attempt.runOn_bind_ok (Attempt.runOn_modify _ _)] at h
  split_ifs at h with hp
  · obtain ⟨quotient, hd, h⟩ := Attempt.runOn_of_bind_eq_ok h
    exact ⟨cost, amount, some quotient, (Prod.mk.inj h).2.symm, ht, fun _ => ⟨quotient, hd, rfl⟩,
      fun hn => absurd (hn.symm.trans hp) (by simp)⟩
  · exact ⟨cost, amount, order.average, (Prod.mk.inj h).2.symm, ht, fun h => absurd h hp,
      fun _ => rfl⟩

lemma addFilled_ok {amount : Decimal} (h : (addFilled amount).runOn order = (.ok (), newer)) :
    ∃ filled remaining status, newer = { order with filled, remaining, status } ∧
      order.filled.add amount = .ok filled ∧
      (order.amount = none → remaining = order.remaining ∧ status = order.status) ∧
      ∀ total, order.amount = some total → ∃ left, remainder total filled = .ok left ∧
        remaining = some left ∧
        status = if left.isZero ∧ order.status = .live then .closed else order.status := by
  rw [addFilled, Attempt.runOn_bind_ok (Attempt.runOn_get _)] at h
  obtain ⟨filled, hf, h⟩ := Attempt.runOn_of_bind_eq_ok h
  rw [Attempt.runOn_bind_ok (Attempt.runOn_modify _ _),
    Attempt.runOn_bind_ok (Attempt.runOn_get _)] at h
  dsimp only at h
  rcases ha : order.amount with _ | total
  · rw [ha] at h
    obtain rfl := (Prod.mk.inj h).2
    exact ⟨filled, order.remaining, order.status, rfl, hf, fun _ => ⟨rfl, rfl⟩, by simp⟩
  · rw [ha] at h
    obtain ⟨left, hr, h⟩ := Attempt.runOn_of_bind_eq_ok h
    obtain rfl := (Prod.mk.inj h).2
    refine ⟨filled, some left, _, rfl, hf, by simp, ?_⟩
    rintro _ ⟨rfl⟩
    exact ⟨left, hr, rfl, rfl⟩

/-- A fee adds to a fee in its currency and to no other one; the first fee sets the currency. -/
lemma addFee_ok {charged : Fee} (h : (addFee charged).runOn order = (.ok (), newer)) :
    let before : Fee := order.fee.getD (.ofCurrency charged.currency)
    ∃ fee, newer = { order with fee := some fee } ∧
      (before.currency = charged.currency → ∃ cost, before.cost.add charged.cost = .ok cost ∧
        fee = { before with cost }) ∧ (before.currency ≠ charged.currency → fee = before) := by
  rw [addFee, Attempt.runOn_bind_ok (Attempt.runOn_modify _ _),
    Attempt.runOn_bind_ok (Attempt.runOn_get _)] at h
  dsimp only at h
  split_ifs at h with hc
  · obtain ⟨cost, hadd, h⟩ := Attempt.runOn_of_bind_eq_ok h
    exact ⟨_, (Prod.mk.inj h).2.symm, fun _ => ⟨cost, hadd, rfl⟩, fun hn => absurd hc hn⟩
  · exact ⟨_, (Prod.mk.inj h).2.symm, fun heq => absurd heq hc, fun _ => rfl⟩

/-- What a fill that is recorded makes of an order. -/
structure Filled (order : Order) (trade : Trade) (newer : Order) : Prop where
  frame : newer = { order.record trade with
    cost := newer.cost, average := newer.average, filled := newer.filled
    remaining := newer.remaining, status := newer.status, fee := newer.fee }
  totals : ∃ amount, Order.totals newer.trades = .ok (newer.cost, amount) ∧
    (amount.isPositive = true → ∃ quotient, newer.cost.div amount = .ok quotient ∧
      newer.average = some quotient)
  filled : order.filled.add trade.amount = .ok newer.filled
  unbounded : order.amount = none → newer.remaining = order.remaining ∧
    newer.status = order.status
  bounded : ∀ amount, order.amount = some amount → ∃ left,
    remainder amount newer.filled = .ok left ∧ newer.remaining = some left ∧
      newer.status = if left.isZero ∧ order.status = .live then .closed else order.status

lemma Filled.trades (h : Filled order trade newer) : newer.trades = order.trades ++ [trade] := by
  rw [h.frame]
  rfl

lemma Filled.amount (h : Filled order trade newer) : newer.amount = order.amount := by
  rw [h.frame]
  rfl

lemma hasTrade_iff : order.hasTrade trade = true ↔
    trade.id ≠ none ∧ trade.id ∈ order.trades.map (·.id) := by
  rw [hasTrade]
  cases trade.id with
  | none => simp
  | some id => simp

lemma applyFill_of_hasTrade (h : order.hasTrade trade = true) :
    (applyFill trade).runOn order = (.ok false, order) := by
  rw [applyFill, Attempt.runOn_bind_ok (Attempt.runOn_get _), if_pos h, Attempt.runOn_pure]

/-- A fill that is recorded first prices the history, then counts its amount and then its fee. -/
lemma applyFill_steps {changed : Bool} (hn : order.hasTrade trade = false)
    (h : (applyFill trade).runOn order = (.ok changed, newer)) : changed = true ∧
      ∃ costed counted, recost.runOn (order.record trade) = (.ok (), costed) ∧
        (addFilled trade.amount).runOn costed = (.ok (), counted) ∧
        (trade.fee = none → newer = counted) ∧
        ∀ fee, trade.fee = some fee → (addFee fee).runOn counted = (.ok (), newer) := by
  rw [applyFill, Attempt.runOn_bind_ok (Attempt.runOn_get _), if_neg (by simp [hn]),
    Attempt.runOn_bind_ok (Attempt.runOn_modify _ _)] at h
  obtain ⟨⟨⟩, costed, hcosted, h⟩ := Attempt.runOn_bind_eq_ok h
  obtain ⟨⟨⟩, counted, hcounted, h⟩ := Attempt.runOn_bind_eq_ok h
  cases hfee : trade.fee with
  | none =>
    rw [hfee] at h
    obtain ⟨hchanged, hsame⟩ := Prod.mk.inj h
    exact ⟨(Except.ok.inj hchanged).symm, costed, counted, hcosted, hcounted,
      fun _ => hsame.symm, by simp⟩
  | some fee =>
    rw [hfee] at h
    obtain ⟨⟨⟩, charged, hcharged, h⟩ := Attempt.runOn_bind_eq_ok h
    obtain ⟨hchanged, rfl⟩ := Prod.mk.inj h
    refine ⟨(Except.ok.inj hchanged).symm, costed, counted, hcosted, hcounted, by simp, ?_⟩
    rintro _ ⟨rfl⟩
    exact hcharged

lemma applyFill_ok {changed : Bool} (hn : order.hasTrade trade = false)
    (h : (applyFill trade).runOn order = (.ok changed, newer)) :
    changed = true ∧ Filled order trade newer := by
  obtain ⟨hchanged, costed, counted, hc, hf, hnone, hsome⟩ := applyFill_steps hn h
  obtain ⟨cost, amount, average, rfl, htotals, haverage, -⟩ := recost_ok hc
  obtain ⟨sum, remaining, status, rfl, hsum, hunbounded, hbounded⟩ := addFilled_ok hf
  have hfee : ∃ fee, newer = { order.record trade with
      cost, average, filled := sum, remaining, status, fee } := by
    cases htrade : trade.fee with
    | none => exact ⟨_, hnone htrade⟩
    | some charged =>
      obtain ⟨fee, hnewer, -⟩ := addFee_ok (hsome charged htrade)
      exact ⟨some fee, hnewer⟩
  obtain ⟨fee, rfl⟩ := hfee
  exact ⟨hchanged, rfl, ⟨amount, htotals, haverage⟩, hsum, hunbounded, hbounded⟩

/-- A fill that completes says whether it changed the order. -/
lemma applyFill_cases {changed : Bool}
    (h : (applyFill trade).runOn order = (.ok changed, newer)) :
    changed = !order.hasTrade trade ∧ (order.hasTrade trade = true ∧ newer = order ∨
      order.hasTrade trade = false ∧ Filled order trade newer) := by
  cases ht : order.hasTrade trade with
  | true =>
    rw [applyFill_of_hasTrade ht] at h
    obtain ⟨hc, hsame⟩ := Prod.mk.inj h
    exact ⟨(Except.ok.inj hc).symm, .inl ⟨rfl, hsame.symm⟩⟩
  | false =>
    obtain ⟨hc, hfilled⟩ := applyFill_ok ht h
    exact ⟨hc, .inr ⟨rfl, hfilled⟩⟩

section Keeps

variable {γ : Type} {part : Order → γ}

lemma keeps_recost (hc : ∀ order cost, part { order with cost } = part order)
    (ha : ∀ order average, part { order with average } = part order) :
    Attempt.Keeps part recost := by
  refine Attempt.keeps_get.bind fun order => (Attempt.keeps_of _).bind fun (cost, amount) => ?_
  refine Attempt.Keeps.bind (Attempt.keeps_modify fun order => hc order cost) fun _ => ?_
  split_ifs
  · exact (Attempt.keeps_of _).bind fun average =>
      Attempt.keeps_modify fun order => ha order (some average)
  · exact Attempt.keeps_pure ()

lemma keeps_addFee (hf : ∀ order fee, part { order with fee } = part order) (charged : Fee) :
    Attempt.Keeps part (addFee charged) := by
  refine Attempt.Keeps.bind (Attempt.keeps_modify fun order => hf order _) fun _ => ?_
  refine Attempt.keeps_get.bind fun order => ?_
  split
  · split_ifs
    · exact (Attempt.keeps_of _).bind fun cost => Attempt.keeps_modify fun order => hf order _
    · exact Attempt.keeps_pure ()
  · exact Attempt.keeps_pure ()

end Keeps

lemma keeps_keys_addFilled (amount : Decimal) :
    Attempt.Keeps RecordKeys.of (addFilled amount) := by
  refine Attempt.keeps_get.bind fun order => (Attempt.keeps_of _).bind fun filled => ?_
  refine Attempt.Keeps.bind (Attempt.keeps_modify fun _ => rfl) fun _ => ?_
  refine Attempt.keeps_get.bind fun order => ?_
  split
  · exact (Attempt.keeps_of _).bind fun remaining => Attempt.keeps_modify fun _ => rfl
  · exact Attempt.keeps_pure ()

/-- A fill leaves the keys of its order alone, also when an overflow ends it. -/
lemma keeps_keys_applyFill (trade : Trade) : Attempt.Keeps RecordKeys.of (applyFill trade) := by
  refine Attempt.keeps_get.bind fun order => ?_
  split_ifs
  · exact Attempt.keeps_pure false
  · refine Attempt.Keeps.bind (Attempt.keeps_modify fun _ => rfl) fun _ => ?_
    refine (keeps_recost (fun _ _ => rfl) fun _ _ => rfl).bind fun _ => ?_
    refine (keeps_keys_addFilled _).bind fun _ => ?_
    dsimp only
    split
    · exact (keeps_addFee (fun _ _ => rfl) _).bind fun _ => Attempt.keeps_pure true
    · exact Attempt.keeps_pure true

lemma keys_of_applyFill {changed : Bool}
    (h : (applyFill trade).runOn order = (.ok changed, newer)) :
    RecordKeys.of newer = RecordKeys.of order := by
  have hk := keeps_keys_applyFill trade order
  rw [h] at hk
  exact hk

/-- All that an update can make of an order. -/
inductive Merged (newer older : Order) : Order → Prop
  | reported (h : newer.trades = [] → older.trades = []) :
      Merged newer older { newer.withIdentityOf older with fee := newer.fee <|> older.fee }
  | unbounded (hn : newer.trades = []) (ho : older.trades ≠ []) (ha : newer.amount = none) :
      Merged newer older { (newer.withIdentityOf older).withHistoryOf older with
        fee := newer.fee <|> older.fee }
  | bounded {amount remaining : Decimal} (hn : newer.trades = []) (ho : older.trades ≠ [])
      (ha : newer.amount = some amount)
      (hr : remainder amount (newer.filled.max older.filled) = .ok remaining) :
      Merged newer older { (newer.withIdentityOf older).withHistoryOf older with
        remaining := some remaining, fee := newer.fee <|> older.fee }

/-- An update changes the order, unless the remainder overflows. -/
lemma mergeUpdate_cases (newer older : Order) :
    (∃ merged, (mergeUpdate newer).runOn older = (.ok (), merged) ∧ Merged newer older merged) ∨
      ∃ overflow amount, (mergeUpdate newer).runOn older =
        (.error overflow, (newer.withIdentityOf older).withHistoryOf older) ∧
        newer.amount = some amount ∧
        remainder amount (newer.filled.max older.filled) = .error overflow := by
  rw [mergeUpdate, Attempt.runOn_bind_ok (Attempt.runOn_get _),
    Attempt.runOn_bind_ok (Attempt.runOn_set _ _)]
  dsimp only
  split_ifs with ht
  · obtain ⟨hn, ho⟩ := ht
    have hn : newer.trades = [] := by simpa using hn
    have ho : older.trades ≠ [] := by simpa using ho
    rw [Attempt.runOn_bind_ok (Attempt.runOn_modify _ _)]
    cases ha : newer.amount with
    | none => exact .inl ⟨_, rfl, .unbounded hn ho ha⟩
    | some amount =>
      dsimp only
      rw [Attempt.runOn_bind_ok (Attempt.runOn_get _)]
      have hfilled : ((newer.withIdentityOf older).withHistoryOf older).filled =
          newer.filled.max older.filled := rfl
      rw [hfilled]
      cases hr : remainder amount (newer.filled.max older.filled) with
      | error overflow => exact .inr ⟨overflow, amount, rfl, rfl, hr⟩
      | ok remaining => exact .inl ⟨_, rfl, .bounded hn ho ha hr⟩
  · exact .inl ⟨_, rfl, .reported fun hn => by simpa [hn] using ht⟩

lemma mergeUpdate_ok {merged : Order} (h : (mergeUpdate newer).runOn older = (.ok (), merged)) :
    Merged newer older merged := by
  rcases mergeUpdate_cases newer older with ⟨merged', hm, hmerged⟩ | ⟨overflow, amount, he, -⟩
  · obtain rfl : merged' = merged := (Prod.mk.inj (hm.symm.trans h)).2
    exact hmerged
  · exact absurd (Prod.mk.inj (he.symm.trans h)).1 (by simp)

end MarketFeed.Order
