import MarketFeed.Feed.Store
import MarketFeed.Proofs.Decimal.Rounding
import MarketFeed.Proofs.Order.Step

/-!
# Fills that an overflow ends

A fill changes its order step by step, and an overflow leaves what the steps before it have made of
the order. The first step puts the trade on record, so a fill that is not applied as a whole passes
for one that was applied before as soon as it comes again.
-/

namespace MarketFeed

namespace Order

variable {order left newer : Order} {trade : Trade} {overflow : Decimal.Overflow}

/-- The cost and the average of the order with the trade on record. -/
def Priced (order : Order) (trade : Trade) (cost : Decimal) (average : Option Decimal) : Prop :=
  ∃ amount, totals (order.trades ++ [trade]) = .ok (cost, amount) ∧
    (amount.isPositive = true → ∃ quotient, cost.div amount = .ok quotient ∧
      average = some quotient) ∧ (amount.isPositive = false → average = order.average)

/-- The order has taken the trade with all that belongs to it. -/
structure Whole (order : Order) (trade : Trade) (newer : Order) : Prop where
  filled : Filled order trade newer
  priced : order.Priced trade newer.cost newer.average
  free : trade.fee = none → newer.fee = order.fee
  charged : ∀ charged, trade.fee = some charged → ∃ fee, newer.fee = some fee ∧
    let before : Fee := order.fee.getD (.ofCurrency charged.currency)
    (before.currency = charged.currency → ∃ cost, before.cost.add charged.cost = .ok cost ∧
      fee = { before with cost }) ∧ (before.currency ≠ charged.currency → fee = before)

/-- What is left of a fill that an overflow ends: one case for each operation that can overflow. -/
inductive Unfinished (order : Order) (trade : Trade) : Decimal.Overflow → Order → Prop
  | totals (h : totals (order.trades ++ [trade]) = .error .addition) :
      Unfinished order trade .addition (order.record trade)
  | average {cost amount : Decimal}
      (ht : Order.totals (order.trades ++ [trade]) = .ok (cost, amount))
      (hp : amount.isPositive = true) (h : cost.div amount = .error .division) :
      Unfinished order trade .division { order.record trade with cost }
  | filled {cost : Decimal} {average : Option Decimal} (hp : order.Priced trade cost average)
      (h : order.filled.add trade.amount = .error .addition) :
      Unfinished order trade .addition { order.record trade with cost, average }
  | remaining {cost filled total : Decimal} {average : Option Decimal}
      (hp : order.Priced trade cost average) (hf : order.filled.add trade.amount = .ok filled)
      (ha : order.amount = some total) (h : total.sub filled = .error .subtraction) :
      Unfinished order trade .subtraction { order.record trade with cost, average, filled }
  | fee {counted : Order} {fee charged : Fee} (hc : Filled order trade counted)
      (hkept : counted.fee = order.fee) (hf : order.fee = some fee)
      (ht : trade.fee = some charged) (hsame : fee.currency = charged.currency)
      (h : fee.cost.add charged.cost = .error .addition) :
      Unfinished order trade .addition counted

lemma Unfinished.trades (h : Unfinished order trade overflow left) :
    left.trades = order.trades ++ [trade] := by
  cases h with
  | totals => rfl
  | average => rfl
  | filled => rfl
  | remaining => rfl
  | fee hc => exact hc.trades

lemma Unfinished.fee_eq (h : Unfinished order trade overflow left) : left.fee = order.fee := by
  cases h with
  | totals => rfl
  | average => rfl
  | filled => rfl
  | remaining => rfl
  | fee hc hkept => exact hkept

/-! The operations that can overflow, step by step. -/

lemma overflow_of_foldlM_totals {trades : List Trade} {cost amount : Decimal}
    (h : trades.foldlM (fun (sums : Decimal × Decimal) trade => do
      return (← sums.1.add trade.cost, ← sums.2.add trade.amount)) (cost, amount) =
        (.error overflow : Except Decimal.Overflow _)) : overflow = .addition := by
  induction trades generalizing cost amount with
  | nil => exact absurd h (by simp [pure, Except.pure])
  | cons trade rest ih =>
    rw [List.foldlM_cons] at h
    cases hc : cost.add trade.cost with
    | error ended =>
      rw [hc] at h
      rw [← Except.error.inj h]
      exact Decimal.overflow_of_add hc
    | ok nextCost =>
      cases ha : amount.add trade.amount with
      | error ended =>
        rw [hc, ha] at h
        rw [← Except.error.inj h]
        exact Decimal.overflow_of_add ha
      | ok nextAmount =>
        rw [hc, ha] at h
        exact ih h

lemma recost_error (h : recost.runOn order = (.error overflow, left)) :
    (totals order.trades = .error .addition ∧ overflow = .addition ∧ left = order) ∨
      ∃ cost amount, totals order.trades = .ok (cost, amount) ∧ amount.isPositive = true ∧
        cost.div amount = .error .division ∧ overflow = .division ∧ left = { order with cost } := by
  rw [recost, Attempt.runOn_bind_ok (Attempt.runOn_get _)] at h
  rcases Attempt.runOn_of_bind_eq_error h with ⟨ht, rfl⟩ | ⟨⟨cost, amount⟩, ht, h⟩
  · obtain rfl := overflow_of_foldlM_totals ht
    exact .inl ⟨ht, rfl, rfl⟩
  · rw [Attempt.runOn_bind_ok (Attempt.runOn_modify _ _)] at h
    split_ifs at h with hp
    · rcases Attempt.runOn_of_bind_eq_error h with ⟨hd, rfl⟩ | ⟨quotient, hd, h⟩
      · obtain rfl := Decimal.overflow_of_div hd
        exact .inr ⟨cost, amount, ht, hp, hd, rfl, rfl⟩
      · exact absurd (Prod.mk.inj h).1 (by simp)
    · exact absurd (Prod.mk.inj h).1 (by simp)

lemma addFilled_error {amount : Decimal}
    (h : (addFilled amount).runOn order = (.error overflow, left)) :
    (order.filled.add amount = .error .addition ∧ overflow = .addition ∧ left = order) ∨
      ∃ filled total, order.filled.add amount = .ok filled ∧ order.amount = some total ∧
        total.sub filled = .error .subtraction ∧ overflow = .subtraction ∧
        left = { order with filled } := by
  rw [addFilled, Attempt.runOn_bind_ok (Attempt.runOn_get _)] at h
  rcases Attempt.runOn_of_bind_eq_error h with ⟨hf, rfl⟩ | ⟨filled, hf, h⟩
  · obtain rfl := Decimal.overflow_of_add hf
    exact .inl ⟨hf, rfl, rfl⟩
  · rw [Attempt.runOn_bind_ok (Attempt.runOn_modify _ _),
      Attempt.runOn_bind_ok (Attempt.runOn_get _)] at h
    dsimp only at h
    cases ha : order.amount with
    | none =>
      rw [ha] at h
      exact absurd (Prod.mk.inj h).1 (by simp)
    | some total =>
      rw [ha] at h
      rcases Attempt.runOn_of_bind_eq_error h with ⟨hr, rfl⟩ | ⟨remaining, hr, h⟩
      · have hsub : total.sub filled = .error overflow := by
          cases hs : total.sub filled with
          | error ended =>
            rw [remainder, hs] at hr
            exact hr
          | ok difference =>
            rw [remainder, hs] at hr
            exact absurd hr (by simp [pure, Except.pure, bind, Except.bind])
        obtain rfl := Decimal.overflow_of_sub hsub
        exact .inr ⟨filled, total, hf, rfl, hsub, rfl, rfl⟩
      · exact absurd (Prod.mk.inj h).1 (by simp)

/-- A first fee cannot overflow, as it is added to nothing. -/
lemma addFee_error {charged : Fee} (h : (addFee charged).runOn order = (.error overflow, left)) :
    ∃ fee, order.fee = some fee ∧ fee.currency = charged.currency ∧
      fee.cost.add charged.cost = .error .addition ∧ overflow = .addition ∧ left = order := by
  rw [addFee, Attempt.runOn_bind_ok (Attempt.runOn_modify _ _),
    Attempt.runOn_bind_ok (Attempt.runOn_get _)] at h
  dsimp only at h
  split_ifs at h with hc
  · rcases Attempt.runOn_of_bind_eq_error h with ⟨hadd, rfl⟩ | ⟨cost, -, h⟩
    · cases hf : order.fee with
      | none =>
        rw [hf] at hadd
        rw [Option.getD_none, Fee.ofCurrency, Decimal.add, Decimal.add?, if_pos (by rfl)] at hadd
        exact absurd hadd (by simp)
      | some fee =>
        rw [hf] at hadd hc
        obtain rfl := Decimal.overflow_of_add hadd
        refine ⟨fee, rfl, hc, hadd, rfl, ?_⟩
        rw [Option.getD_some, ← hf]
    · exact absurd (Prod.mk.inj h).1 (by simp)
  · exact absurd (Prod.mk.inj h).1 (by simp)

lemma whole_of_applyFill {changed : Bool} (hnew : order.hasTrade trade = false)
    (h : (applyFill trade).runOn order = (.ok changed, newer)) : Whole order trade newer := by
  have hfilled : Filled order trade newer := (applyFill_ok hnew h).2
  obtain ⟨-, costed, counted, hcost, hcount, hfree, hcharged⟩ := applyFill_steps hnew h
  obtain ⟨cost, amount, average, rfl, ht, hp, hn⟩ := recost_ok hcost
  obtain ⟨filled, remaining, status, rfl, -⟩ := addFilled_ok hcount
  cases htrade : trade.fee with
  | none =>
    obtain rfl := hfree htrade
    exact ⟨hfilled, ⟨amount, ht, hp, hn⟩, fun _ => rfl, by simp [htrade]⟩
  | some charged =>
    obtain ⟨fee, rfl, hfee⟩ := addFee_ok (hcharged charged htrade)
    refine ⟨hfilled, ⟨amount, ht, hp, hn⟩, by simp [htrade], ?_⟩
    intro other hother
    obtain rfl : charged = other := Option.some.inj (htrade.symm.trans hother)
    exact ⟨fee, rfl, hfee⟩

/-- Each operation that can overflow leaves what the steps before it have done, and no more. -/
lemma applyFill_error (h : (applyFill trade).runOn order = (.error overflow, left)) :
    order.hasTrade trade = false ∧ Unfinished order trade overflow left := by
  have hnew : order.hasTrade trade = false := by
    cases hold : order.hasTrade trade with
    | false => rfl
    | true =>
      rw [applyFill_of_hasTrade hold] at h
      exact absurd (Prod.mk.inj h).1 (by simp)
  refine ⟨hnew, ?_⟩
  rw [applyFill, Attempt.runOn_bind_ok (Attempt.runOn_get _), if_neg (by simp [hnew]),
    Attempt.runOn_bind_ok (Attempt.runOn_modify _ _)] at h
  rcases Attempt.runOn_bind_eq_error h with hcost | ⟨⟨⟩, priced, hcost, h⟩
  · rcases recost_error hcost with ⟨ht, rfl, rfl⟩ | ⟨cost, amount, ht, hp, hd, rfl, rfl⟩
    · exact .totals ht
    · exact .average ht hp hd
  obtain ⟨cost, amount, average, rfl, ht, hp, hn⟩ := recost_ok hcost
  have hpriced : order.Priced trade cost average := ⟨amount, ht, hp, hn⟩
  rcases Attempt.runOn_bind_eq_error h with hfilled | ⟨⟨⟩, counted, hfilled, h⟩
  · rcases addFilled_error hfilled with ⟨hf, rfl, rfl⟩ | ⟨filled, total, hf, ha, hs, rfl, rfl⟩
    · exact .filled hpriced hf
    · exact .remaining hpriced hf ha hs
  obtain ⟨filled, remaining, status, rfl, hf, hunbounded, hbounded⟩ := addFilled_ok hfilled
  cases htrade : trade.fee with
  | none =>
    rw [htrade] at h
    exact absurd (Prod.mk.inj h).1 (by simp)
  | some charged =>
    rw [htrade] at h
    rcases Attempt.runOn_bind_eq_error h with hfee | ⟨⟨⟩, after, -, h⟩
    · obtain ⟨fee, hf', hsame, hadd, rfl, rfl⟩ := addFee_error hfee
      exact .fee ⟨rfl, ⟨amount, ht, hp⟩, hf, hunbounded, hbounded⟩ rfl hf' htrade hsame hadd
    · exact absurd (Prod.mk.inj h).1 (by simp)

/-- What an overflow leaves knows the trade by its id. -/
lemma Unfinished.hasTrade (h : Unfinished order trade overflow left) :
    left.hasTrade trade = true ↔ trade.id ≠ none := by
  rw [hasTrade_iff, h.trades]
  simp

end Order

namespace FeedStore

variable {store : FeedStore} {order left : Order} {fill : Trade} {name : String} {position : Nat}
  {overflow : Decimal.Overflow}

/-- A trade is replaced by a newer record of it, which nothing can end. -/
lemma runOn_append_trade (cache : KeyedCache Trade) (trade : Trade) :
    ∃ after, (KeyedCache.append trade).runOn cache = (.ok (), after) := by
  cases hm : (cache.match? trade).bind cache.slot? with
  | none => exact ⟨_, KeyedCache.runOn_append_of_none hm⟩
  | some older =>
    obtain ⟨position, hp, hs⟩ := Option.bind_eq_some_iff.mp hm
    rw [KeyedCache.runOn_append_of_slot? hp hs]
    exact ⟨_, KeyedCache.runOn_update_ok hs (Attempt.runOn_set older trade)⟩

/-- The trade is noted first, then the orders take it as they would by themselves. -/
lemma runOn_applyFill (store : FeedStore) (fill : Trade) : ∃ ownTrades,
    (applyFill fill).runOn store = (((OrderCache.applyFill fill).runOn store.orders).1,
      { store with ownTrades, orders := ((OrderCache.applyFill fill).runOn store.orders).2 }) := by
  obtain ⟨ownTrades, happend⟩ := runOn_append_trade store.ownTrades fill
  have hnoted : ((KeyedCache.append fill).onPart store.ownTrades
      fun ownTrades store => { store with ownTrades }).runOn store =
        (.ok (), { store with ownTrades }) := by
    rw [Attempt.runOn_onPart, happend]
  refine ⟨ownTrades, ?_⟩
  rw [applyFill, Attempt.runOn_bind_ok (Attempt.runOn_get _), Attempt.runOn_bind_ok hnoted,
    Attempt.runOn_bind_ok (Attempt.runOn_get _), Attempt.runOn_onPart]

lemma runOn_applyFill_of_ok {changed : Bool} {newer : Order} (hname : fill.order = some name)
    (hknown : store.order? fill.symbol name = some order)
    (h : (Order.applyFill fill).runOn order = (.ok changed, newer)) :
    ((applyFill fill).runOn store).1 = .ok (.ok (if changed then .applied else .duplicate)) := by
  obtain ⟨position, hp, hs⟩ := Option.bind_eq_some_iff.mp hknown
  obtain ⟨ownTrades, hrun⟩ := runOn_applyFill store fill
  have halter := OrderCache.runOn_alter_of_slot? hp hs (Order.applyFill fill)
  rw [KeyedCache.runOn_update_ok hs h] at halter
  rw [hrun, OrderCache.runOn_applyFill_of_found hname halter]

/-- The order that an overflow has left half changed takes the place of the one before. -/
lemma runOn_applyFill_of_error (hname : fill.order = some name)
    (hp : store.orders.orders.position? fill.symbol name = some position)
    (hs : store.orders.orders.slot? position = some order)
    (h : (Order.applyFill fill).runOn order = (.error overflow, left)) : ∃ ownTrades,
      (applyFill fill).runOn store = (.error overflow, { store with
        ownTrades
        orders := { store.orders with
          orders := store.orders.orders.setSlot position (some left) } }) := by
  obtain ⟨ownTrades, hrun⟩ := runOn_applyFill store fill
  have halter := OrderCache.runOn_alter_of_slot? hp hs (Order.applyFill fill)
  rw [KeyedCache.runOn_update_error h] at halter
  refine ⟨ownTrades, ?_⟩
  rw [hrun, OrderCache.applyFill, hname]
  dsimp only
  rw [Attempt.runOn_bind_error halter]

/-- A fill of a known order is applied as a whole, or repeats a trade and changes nothing, unless an
overflow ends it. Then the store goes on with what the overflow has left of the order, in its place
and with the trade on record, and takes the same fill for a repeated one when it has an id. -/
theorem fill_whole_unless_ended (hname : fill.order = some name)
    (hknown : store.order? fill.symbol name = some order) :
    (∃ changed newer, (Order.applyFill fill).runOn order = (.ok changed, newer) ∧
      ((applyFill fill).runOn store).1 = .ok (.ok (if changed then .applied else .duplicate)) ∧
      (changed = false ∧ order.hasTrade fill = true ∧ newer = order ∨
        changed = true ∧ order.hasTrade fill = false ∧ order.Whole fill newer)) ∨
    ∃ overflow left position after, (Order.applyFill fill).runOn order = (.error overflow, left) ∧
      (applyFill fill).runOn store = (.error overflow, after) ∧
      order.Unfinished fill overflow left ∧ left.trades = order.trades ++ [fill] ∧
      left.fee = order.fee ∧
      store.orders.orders.position? fill.symbol name = some position ∧
      after.orders = { store.orders with
        orders := store.orders.orders.setSlot position (some left) } ∧
      after.order? fill.symbol name = some left ∧
      (fill.id ≠ none → (Order.applyFill fill).runOn left = (.ok false, left) ∧
        ((applyFill fill).runOn after).1 = .ok (.ok .duplicate)) := by
  rcases hr : (Order.applyFill fill).runOn order with ⟨overflow | changed, newer⟩
  · obtain ⟨-, hleft⟩ := Order.applyFill_error hr
    obtain ⟨position, hp, hs⟩ := Option.bind_eq_some_iff.mp hknown
    obtain ⟨ownTrades, hrun⟩ := runOn_applyFill_of_error hname hp hs hr
    have hshown : ({ store with
        ownTrades
        orders := { store.orders with
          orders := store.orders.orders.setSlot position (some newer) } } : FeedStore).order?
            fill.symbol name = some newer := by
      have hslot : (store.orders.orders.setSlot position (some newer)).slot? position =
          some newer := by
        rw [KeyedCache.slot?_setSlot hs, Function.update_self]
      exact Option.bind_eq_some_iff.mpr ⟨position, hp, hslot⟩
    refine .inr ⟨overflow, newer, position, _, rfl, hrun, hleft, hleft.trades, hleft.fee_eq, hp,
      rfl, hshown, ?_⟩
    intro hid
    have hrepeated := Order.applyFill_of_hasTrade (hleft.hasTrade.mpr hid)
    exact ⟨hrepeated, runOn_applyFill_of_ok hname hshown hrepeated⟩
  · refine .inl ⟨changed, newer, rfl, runOn_applyFill_of_ok hname hknown hr, ?_⟩
    obtain ⟨rfl, ⟨hold, hsame⟩ | ⟨hnew, -⟩⟩ := Order.applyFill_cases hr
    · exact .inl ⟨by simp [hold], hold, hsame⟩
    · exact .inr ⟨by simp [hnew], hnew, Order.whole_of_applyFill hnew hr⟩

/-- The cost of two fills at the largest price is too large. The second fill is put on record beside
the first one, but what is filled stays at one unit of two, and the fill cannot be counted later. -/
theorem second_fill_ended_by_its_cost :
    let one : Decimal := ⟨1, 0, by decide, by decide⟩
    let largest : Decimal := ⟨79228162514264337593543950335, 0, by decide, by decide⟩
    let fill := fun id => { Trade.blank with
      id := some id, order := some "A", symbol := "BTC/USDT", price := largest, amount := one
      cost := largest }
    let placed := Order.new "A" "BTC/USDT" .buy (some .two) none
    let opened := ((upsertOrder placed).runOn (new .standard .standard)).2
    let store := ((applyFill (fill "t1")).runOn opened).2
    ∃ order left after, store.order? "BTC/USDT" "A" = some order ∧
      (order.trades.length, order.filled) = (1, one) ∧
      (applyFill (fill "t2")).runOn store = (.error .addition, after) ∧
      order.Unfinished (fill "t2") .addition left ∧ after.order? "BTC/USDT" "A" = some left ∧
      ((applyFill (fill "t2")).runOn after).1 = .ok (.ok .duplicate) := by
  intro one largest fill placed opened store
  obtain ⟨order, horder⟩ : ∃ order, store.order? "BTC/USDT" "A" = some order :=
    Option.isSome_iff_exists.mp (by decide +kernel)
  have hshown : (store.order? "BTC/USDT" "A").map
      (fun order => (order.trades.length, order.filled)) = some (1, one) := by
    decide +kernel
  have hanswer : ((applyFill (fill "t2")).runOn store).1.map Except.toOption =
      .error .addition := by
    decide +kernel
  rw [horder] at hshown
  have hname : (fill "t2").order = some "A" := rfl
  rcases fill_whole_unless_ended hname horder with ⟨changed, newer, -, hok, -⟩ |
    ⟨overflow, left, position, after, -, hrun, hleft, -, -, -, -, hafter, hagain⟩
  · rw [hok] at hanswer
    exact absurd hanswer (by simp [Except.map])
  · rw [hrun] at hanswer
    obtain rfl : overflow = .addition := Except.error.inj hanswer
    exact ⟨order, left, after, horder, Option.some.inj hshown, hrun, hleft, hafter,
      (hagain (by simp [fill])).2⟩

/-- The overflow changes the order: a trade more is on record, and the fill is a repeated one. -/
theorem ended_fill_stays_on_record :
    let one : Decimal := ⟨1, 0, by decide, by decide⟩
    let largest : Decimal := ⟨79228162514264337593543950335, 0, by decide, by decide⟩
    let fill := fun id => { Trade.blank with
      id := some id, order := some "A", symbol := "BTC/USDT", price := largest, amount := one
      cost := largest }
    let placed := Order.new "A" "BTC/USDT" .buy (some .two) none
    let opened := ((upsertOrder placed).runOn (new .standard .standard)).2
    let store := ((applyFill (fill "t1")).runOn opened).2
    let ended := (applyFill (fill "t2")).runOn store
    let view := fun order : Order => (order.trades.map (·.id), order.filled, order.remaining)
    (store.order? "BTC/USDT" "A").map view = some ([some "t1"], one, some one) ∧
      ended.1.map Except.toOption = .error .addition ∧
      (ended.2.order? "BTC/USDT" "A").map view =
        some ([some "t1", some "t2"], one, some one) ∧
      ended.2.order? "BTC/USDT" "A" ≠ store.order? "BTC/USDT" "A" ∧
      ((applyFill (fill "t2")).runOn ended.2).1.map Except.toOption = .ok (some .duplicate) := by
  intro one largest fill placed opened store ended view
  have hbefore : (store.order? "BTC/USDT" "A").map view = some ([some "t1"], one, some one) := by
    decide +kernel
  have hafter : (ended.2.order? "BTC/USDT" "A").map view =
      some ([some "t1", some "t2"], one, some one) := by
    decide +kernel
  refine ⟨hbefore, by decide +kernel, hafter, fun hsame => ?_, by decide +kernel⟩
  rw [hsame, hbefore] at hafter
  exact absurd hafter (by decide +kernel)

end FeedStore

end MarketFeed
