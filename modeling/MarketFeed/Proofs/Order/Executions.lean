import MarketFeed.Proofs.Order.Filling

/-!
# Filled amount, cost and average across updates

The filled amount, the cost and the average of an order describe its executions. An update without
trades leaves the order its trades with their cost and their average, and the larger one of the two
filled amounts. So the three go together unless the update is ahead of the order.
-/

namespace MarketFeed.Order

/-- The filled amount, the cost and the average of an order as numbers. -/
def executions (order : Order) : ℚ × ℚ × Option ℚ :=
  (order.filled.value, order.cost.value, order.average.map Decimal.value)

variable {newer older : Order}

/-- What an update without trades leaves, also where an overflow ends it. -/
lemma history_of_mergeUpdate (ho : older.trades ≠ []) (hn : newer.trades = []) :
    let merged := ((mergeUpdate newer).runOn older).2
    merged.trades = older.trades ∧ merged.filled = newer.filled.max older.filled ∧
      merged.cost = older.cost ∧ merged.average = older.average := by
  rcases mergeUpdate_cases newer older with ⟨merged, hm, hmerged⟩ | ⟨overflow, amount, he, -⟩
  · rw [hm]
    cases hmerged with
    | reported h => exact absurd (h hn) ho
    | unbounded => exact ⟨rfl, rfl, rfl, rfl⟩
    | bounded => exact ⟨rfl, rfl, rfl, rfl⟩
  · rw [he]
    exact ⟨rfl, rfl, rfl, rfl⟩

lemma executions_of_mergeUpdate (ho : older.trades ≠ []) (hn : newer.trades = []) :
    ((mergeUpdate newer).runOn older).2.executions =
      (max newer.filled.value older.filled.value, older.executions.2) := by
  obtain ⟨-, hfilled, hcost, haverage⟩ := history_of_mergeUpdate ho hn
  rw [executions, hfilled, hcost, haverage, Decimal.value_max]
  rfl

/-- An update without trades leaves an order with trades its own executions unless it reports a
larger filled amount. Then the order gets the filled amount of the update beside its own cost and
average, which are the executions of neither, unless the update reports the same cost and
average. -/
theorem executions_kept_unless_update_ahead (ho : older.trades ≠ []) (hn : newer.trades = []) :
    let merged : Order := ((mergeUpdate newer).runOn older).2
    (merged.filled = newer.filled.max older.filled ∧ merged.cost = older.cost ∧
      merged.average = older.average) ∧
    (merged.executions = older.executions ↔ newer.filled.value ≤ older.filled.value) ∧
    (older.filled.value < newer.filled.value →
      merged.executions = (newer.filled.value, older.executions.2) ∧
      (merged.executions = newer.executions ↔ newer.executions.2 = older.executions.2)) := by
  intro merged
  have hmerged : merged.executions =
      (max newer.filled.value older.filled.value, older.executions.2) :=
    executions_of_mergeUpdate ho hn
  refine ⟨(history_of_mergeUpdate ho hn).2, ?_, fun hahead => ?_⟩
  · rw [hmerged, executions, Prod.mk.injEq, and_iff_left rfl]
    exact max_eq_right_iff
  · have hlarger : merged.executions = (newer.filled.value, older.executions.2) := by
      rw [hmerged, max_eq_left hahead.le]
    have hnewer : newer.executions = (newer.filled.value, newer.executions.2) := rfl
    refine ⟨hlarger, ?_⟩
    rw [hlarger, hnewer, Prod.mk.injEq, and_iff_right rfl]
    exact eq_comm

/-- An order with one fill keeps its executions when an update comes that does not report the fill
yet. An update that reports the fill and one more leaves its amount with the cost of the first. -/
theorem delayed_update_keeps_executions :
    let one : Decimal := ⟨1, 0, by decide, by decide⟩
    let fifty : Decimal := ⟨50, 0, by decide, by decide⟩
    let fill := { Trade.blank with id := some "t1", price := fifty, amount := one, cost := fifty }
    let placed := Order.new "A" "BTC/USDT" .buy (some .two) none
    let older := ((applyFill fill).runOn placed).2
    let full := { placed with filled := .two, cost := ⟨110, 0, by decide, by decide⟩ }
    older.trades ≠ [] ∧ placed.trades = [] ∧ full.trades = [] ∧
      ((mergeUpdate placed).runOn older).2.executions = (1, 50, some 50) ∧
      ((mergeUpdate full).runOn older).2.executions = (2, 50, some 50) := by
  intro one fifty fill placed older full
  have ho : older.trades ≠ [] := by decide +kernel
  have holder : older.executions = (1, 50, some 50) := by
    have hshown : (older.filled, older.cost, older.average) = (one, fifty, some fifty) := by
      decide +kernel
    obtain ⟨hf, hc, ha⟩ : older.filled = one ∧ older.cost = fifty ∧ older.average = some fifty := by
      simpa using hshown
    rw [executions, hf, hc, ha]
    norm_num [one, fifty, Decimal.value]
  have hvalues : placed.filled.value = 0 ∧ full.filled.value = 2 ∧ older.filled.value = 1 :=
    ⟨Decimal.value_zero, by norm_num [full, Decimal.value, Decimal.two],
      congrArg Prod.fst holder⟩
  obtain ⟨-, hbehind, -⟩ := executions_kept_unless_update_ahead ho (rfl : placed.trades = [])
  obtain ⟨-, -, hahead⟩ := executions_kept_unless_update_ahead ho (rfl : full.trades = [])
  refine ⟨ho, rfl, rfl, (hbehind.mpr ?_).trans holder, ?_⟩
  · rw [hvalues.1, hvalues.2.2]
    norm_num
  · rw [(hahead (by rw [hvalues.2.1, hvalues.2.2]; norm_num)).1, hvalues.2.1, holder]

/-- One of two units is filled at 50, and then an update reports both at an average of 55. The order
shows two units filled at the cost and the average of one. -/
theorem leading_update_mixes_executions :
    let one : Decimal := ⟨1, 0, by decide, by decide⟩
    let fifty : Decimal := ⟨50, 0, by decide, by decide⟩
    let fill := { Trade.blank with id := some "t1", price := fifty, amount := one, cost := fifty }
    let placed := Order.new "A" "BTC/USDT" .buy (some .two) none
    let older := ((applyFill fill).runOn placed).2
    let newer := { placed with
      filled := .two, remaining := some .zero, cost := ⟨110, 0, by decide, by decide⟩
      average := some ⟨55, 0, by decide, by decide⟩, status := .closed }
    let merged := ((mergeUpdate newer).runOn older).2
    older.trades.length = 1 ∧ newer.trades = [] ∧
      (older.filled, older.cost, older.average) = (one, fifty, some fifty) ∧
      (merged.filled, merged.cost, merged.average) = (.two, fifty, some fifty) ∧
      merged.executions ≠ older.executions ∧ merged.executions ≠ newer.executions := by
  intro one fifty fill placed older newer merged
  have holder : (older.filled, older.cost, older.average) = (one, fifty, some fifty) := by
    decide +kernel
  have hmerged : (merged.filled, merged.cost, merged.average) = (.two, fifty, some fifty) := by
    decide +kernel
  refine ⟨by decide +kernel, rfl, holder, hmerged, fun h => ?_, fun h => ?_⟩
  · obtain ⟨hf, -⟩ := Prod.mk.inj holder
    obtain ⟨hm, -⟩ := Prod.mk.inj hmerged
    have hfilled : merged.filled.value = older.filled.value := congrArg Prod.fst h
    rw [hf, hm, ← Decimal.sameValue_iff] at hfilled
    exact absurd hfilled (by decide +kernel)
  · obtain ⟨-, hm⟩ := Prod.mk.inj hmerged
    obtain ⟨hm, -⟩ := Prod.mk.inj hm
    have hcost : merged.cost.value = newer.cost.value := congrArg (fun e => e.2.1) h
    rw [hm, ← Decimal.sameValue_iff] at hcost
    exact absurd hcost (by decide +kernel)

end MarketFeed.Order
