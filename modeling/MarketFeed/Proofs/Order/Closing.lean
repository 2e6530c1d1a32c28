import MarketFeed.Proofs.Order.Effect

/-!
# Orders of which nothing is left

A fill closes an order of which it leaves nothing. An update has the last word on the status, though
the fills that it does not carry count for what is left. So an update that is older than the fills
opens an order again of which nothing is left, and no other update does.
-/

namespace MarketFeed

namespace Order

/-- Nothing is left of the order. -/
def Exhausted (order : Order) : Prop :=
  ∃ left, order.remaining = some left ∧ left.isZero = true

/-- If nothing is left of the order, it is not open. -/
def Settled (order : Order) : Prop := order.Exhausted → order.status ≠ .live

/-- The update has the order open, and the fills on record leave nothing of its amount. -/
def OvertakenBy (update older : Order) : Prop :=
  update.status = .live ∧ update.trades = [] ∧ older.trades ≠ [] ∧
    ∃ amount left, update.amount = some amount ∧
      remainder amount (update.filled.max older.filled) = .ok left ∧ left.isZero = true

variable {order newer older : Order}

instance (update older : Order) : Decidable (update.OvertakenBy older) :=
  decidable_of_iff (update.status = .live ∧ update.trades = [] ∧ older.trades ≠ [] ∧
    (update.amount.any fun amount =>
      (remainder amount (update.filled.max older.filled)).toOption.any Decimal.isZero) = true) <| by
    rw [OvertakenBy]
    cases update.amount with
    | none => simp
    | some amount =>
      cases h : remainder amount (update.filled.max older.filled) with
      | error overflow => simp [Except.toOption, h]
      | ok left => simp [Except.toOption, h]

lemma settled_settle (order : Order) (remaining : Decimal) : (order.settle remaining).Settled := by
  rintro ⟨left, hleft, hzero⟩ hlive
  obtain rfl : remaining = left := Option.some.inj hleft
  unfold settle at hlive
  dsimp only at hlive
  split_ifs at hlive with h
  exact h ⟨hzero, hlive⟩

/-- A fill closes the order if it leaves nothing of it, and otherwise leaves the status alone, also
when an overflow ends it. -/
lemma maintains_settled_applyFill (trade : Trade) : Attempt.Maintains Settled (applyFill trade) := by
  have hrecost : Attempt.Keeps Settled recost := keeps_recost (fun _ _ => rfl) fun _ _ => rfl
  have hadd : Attempt.Maintains Settled (addFilled trade.amount) := by
    refine Attempt.keeps_get.maintains.bind fun order => ?_
    refine (Attempt.keeps_of _).maintains.bind fun filled => ?_
    refine Attempt.Maintains.bind (Attempt.maintains_modify fun _ hs => hs) fun _ => ?_
    refine Attempt.keeps_get.maintains.bind fun order => ?_
    split
    · refine (Attempt.keeps_of _).maintains.bind fun remaining => ?_
      exact Attempt.maintains_modify fun order _ => settled_settle order remaining
    · exact (Attempt.keeps_pure ()).maintains
  have hfee : ∀ charged, Attempt.Keeps Settled (addFee charged) := keeps_addFee fun _ _ => rfl
  refine Attempt.keeps_get.maintains.bind fun order => ?_
  split_ifs
  · exact (Attempt.keeps_pure false).maintains
  · refine Attempt.Maintains.bind (Attempt.maintains_modify fun _ hs => hs) fun _ => ?_
    refine hrecost.maintains.bind fun _ => hadd.bind fun _ => ?_
    dsimp only
    split
    · exact (hfee _).maintains.bind fun _ => (Attempt.keeps_pure true).maintains
    · exact (Attempt.keeps_pure true).maintains

/-- Merging an update that is not overtaken shows what is left and the status as they belong
together, also when an overflow ends it. -/
lemma settled_mergeUpdate (hn : newer.Settled) (ho : ¬ newer.OvertakenBy older) :
    ((mergeUpdate newer).runOn older).2.Settled := by
  rcases mergeUpdate_cases newer older with ⟨merged, hm, hmerged⟩ | ⟨overflow, amount, he, -⟩
  · rw [hm]
    cases hmerged with
    | reported => exact hn
    | unbounded => exact hn
    | @bounded amount left ht hold ha hleft =>
      rintro ⟨remaining, hremaining, hzero⟩ hlive
      obtain rfl : left = remaining := Option.some.inj hremaining
      exact ho ⟨hlive, ht, hold, amount, left, ha, hleft, hzero⟩
  · rw [he]
    exact hn

/-- An update that is overtaken opens the order of which nothing is left. -/
lemma exhausted_of_overtaken (h : newer.OvertakenBy older) : ∃ merged,
    (mergeUpdate newer).runOn older = (.ok (), merged) ∧ merged.Exhausted ∧
      merged.status = .live := by
  obtain ⟨hlive, ht, hold, amount, left, ha, hleft, hzero⟩ := h
  rcases mergeUpdate_cases newer older with ⟨merged, hm, hmerged⟩ | ⟨overflow, total, -, hs, he⟩
  · refine ⟨merged, hm, ?_⟩
    cases hmerged with
    | reported h => exact absurd (h ht) hold
    | unbounded _ _ hnone => exact absurd (hnone.symm.trans ha) (by simp)
    | @bounded total remaining _ _ hs hr =>
      obtain rfl : total = amount := Option.some.inj (hs.symm.trans ha)
      obtain rfl : remaining = left := Except.ok.inj (hr.symm.trans hleft)
      exact ⟨⟨remaining, rfl, hzero⟩, hlive⟩
  · obtain rfl : total = amount := Option.some.inj (hs.symm.trans ha)
    exact absurd (he.symm.trans hleft) (by simp)

end Order

namespace OrderCache

variable {cache : OrderCache} {update : Order} {operation : OrderOperation}

/-- The update finds an order whose fills are ahead of it. -/
def Overtaken (cache : OrderCache) : OrderOperation → Prop
  | .upsert update =>
    ∃ older ∈ (cache.orders.match? update).bind cache.orders.slot?, update.OvertakenBy older
  | .fill _ => False

instance (cache : OrderCache) : (operation : OrderOperation) →
    Decidable (cache.Overtaken operation)
  | .upsert update => inferInstanceAs (Decidable
      (∃ older ∈ (cache.orders.match? update).bind cache.orders.slot?, update.OvertakenBy older))
  | .fill _ => isFalse id

lemma each_settled_after (h : Each Order.Settled cache.orders)
    (hu : ∀ update, operation = .upsert update → update.Settled)
    (ho : ¬ cache.Overtaken operation) : Each Order.Settled (cache.after operation).orders := by
  have hstep := Each.after_modify Order.maintains_settled_applyFill
  cases operation with
  | fill fill => exact orders_after_fill hstep h
  | upsert update =>
    refine orders_after_upsert hstep (h.after_append (hu update rfl) fun position older hm => ?_)
    have hold : ¬ update.OvertakenBy older := fun hover =>
      ho ⟨older, Option.bind_eq_some_iff.mpr ⟨position, hm.target, hm.slot⟩, hover⟩
    exact Order.settled_mergeUpdate (hu update rfl) hold

lemma exhausted_after_overtaken (ho : cache.Overtaken (.upsert update))
    (hw : ∀ fill ∈ cache.pending, awaits update fill = false) :
    ∃ order ∈ (cache.after (.upsert update)).records, order.Exhausted ∧ order.status = .live := by
  obtain ⟨older, hm, hover⟩ := ho
  obtain ⟨position, hmatch, hs⟩ := Option.bind_eq_some_iff.mp hm
  obtain ⟨merged, hmerge, hopen⟩ := Order.exhausted_of_overtaken hover
  have happend : (KeyedCache.append update).runOn cache.orders =
      (.ok (), cache.orders.exchange position older merged) := by
    rw [KeyedCache.runOn_append_of_slot? hmatch hs]
    exact KeyedCache.runOn_update_ok hs hmerge
  obtain ⟨others, -, hafter⟩ := KeyedCache.exists_others hs
  rw [after_upsert, runOn_upsertOrder_of_none happend hw]
  exact ⟨merged, (hafter merged).1.mem_iff.mpr (List.mem_cons_self ..), hopen⟩

/-- As long as no update comes that the fills of its order have overtaken, no order of which nothing
is left is open. Such an update ends this, unless a parked fill comes with it. -/
theorem filled_orders_closed_until_overtaken (limit pendingLimit : Nat) (placement : Placement)
    (operations : List OrderOperation) :
    let start := new limit pendingLimit placement
    let cache := start.run operations
    (∀ update, .upsert update ∈ operations → update.Settled) →
    start.Along (fun cache operation => ¬ cache.Overtaken operation) operations →
    (∀ order ∈ cache.records, order.Exhausted → order.status ≠ .live) ∧
      ∀ update, cache.Overtaken (.upsert update) →
        (∀ fill ∈ cache.pending, awaits update fill = false) →
        ∃ order ∈ (cache.after (.upsert update)).records,
          order.Exhausted ∧ order.status = .live := by
  intro start cache hu ho
  have hrun : Each Order.Settled cache.orders := by
    refine Along.run (Q := fun cache => Each Order.Settled cache.orders) ?_
      (each_new Order.Settled limit placement) ho
    rintro cache operation hm h hover
    exact each_settled_after h (fun update he => hu update (he ▸ hm)) hover
  exact ⟨hrun.2, fun update hover hw => exhausted_after_overtaken hover hw⟩

/-- An order is half filled, updated as still open, filled and updated as closed. The update that
still has all of it open would come too late. -/
theorem updated_orders_closed :
    let one : Decimal := ⟨1, 0, by decide, by decide⟩
    let fill := fun id => { Trade.blank with
      id := some id, order := some "A", symbol := "BTC/USDT", amount := one }
    let placed := Order.new "A" "BTC/USDT" .buy (some .two) none
    let half := { placed with filled := one, remaining := some one }
    let full := { placed with filled := .two, remaining := some .zero, status := .closed }
    let operations : List OrderOperation :=
      [.fill (fill "t1"), .upsert placed, .upsert half, .fill (fill "t2"), .upsert full]
    let start := new 10 10 .moveToNewest
    let cache := start.run operations
    (∀ update, .upsert update ∈ operations → update.Settled) ∧
      start.Along (fun cache operation => ¬ cache.Overtaken operation) operations ∧
      cache.records.map (fun order => (order.filled, order.remaining, order.trades.length)) =
        [(.two, some .zero, 2)] ∧
      (∀ order ∈ cache.records, order.Exhausted → order.status ≠ .live) ∧
      ∃ order ∈ (cache.after (.upsert placed)).records,
        order.Exhausted ∧ order.status = .live := by
  intro one fill placed half full operations start cache
  have hopen : ∀ (left : Decimal) {order : Order}, order.remaining = some left →
      left.isZero = false → order.Settled := by
    rintro left order hr hz ⟨other, ho, hzero⟩
    obtain rfl : left = other := Option.some.inj (hr.symm.trans ho)
    exact absurd (hz.symm.trans hzero) (by simp)
  have hu : ∀ update, .upsert update ∈ operations → update.Settled := by
    intro update hm
    simp only [operations, List.mem_cons, reduceCtorEq, OrderOperation.upsert.injEq,
      List.not_mem_nil, or_false, false_or] at hm
    rcases hm with rfl | rfl | rfl
    · exact hopen .two rfl rfl
    · exact hopen one rfl rfl
    · exact fun _ => by decide
  have ho : start.Along (fun cache operation => ¬ cache.Overtaken operation) operations := by
    decide +kernel
  obtain ⟨hclosed, hstale⟩ :=
    filled_orders_closed_until_overtaken 10 10 .moveToNewest operations hu ho
  exact ⟨hu, ho, by decide +kernel, hclosed, hstale placed (by decide +kernel) (by decide +kernel)⟩

/-- An order is filled, and an update from before the fill shows it open with nothing left. -/
theorem stale_update_opens_filled_order :
    let fill := { Trade.blank with
      id := some "t1", order := some "A", symbol := "BTC/USDT", amount := .two }
    let placed := Order.new "A" "BTC/USDT" .buy (some .two) none
    let cache := (new 10 10 .keep).run [.upsert placed, .fill fill, .upsert placed]
    Order.remainder .two placed.filled = .ok .two ∧ placed.remaining = some .two ∧
      Decimal.two.isZero = false ∧ fill.amount.isPositive = true ∧
      cache.records.map (fun order => (order.remaining, order.status)) =
        [(some .zero, .live)] ∧
      ∃ order ∈ cache.records, order.Exhausted ∧ order.status = .live := by
  intro fill placed cache
  have hrecords : cache.records.map (fun order => (order.remaining, order.status)) =
      [(some .zero, .live)] := by decide +kernel
  refine ⟨by decide +kernel, rfl, rfl, rfl, hrecords, ?_⟩
  obtain ⟨order, hm, hshown⟩ := List.mem_map.mp (hrecords ▸ List.mem_singleton_self _)
  obtain ⟨hremaining, hstatus⟩ := Prod.mk.inj hshown
  exact ⟨order, hm, ⟨.zero, hremaining, rfl⟩, hstatus⟩

end OrderCache

end MarketFeed
