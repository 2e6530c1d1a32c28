import MarketFeed.Proofs.Order.Effect
import MarketFeed.Proofs.Order.Interleaving

/-!
# Fills that an update reports

An update of an order can report a fill before the fill itself comes. Merging takes the larger of
two filled amounts, so a fill that comes first is not counted again with the update. A fill that
comes after the update is added to what the update reported, and counts twice.
-/

namespace MarketFeed

namespace Order

/-- An updated order of which this much has been counted as filled. -/
structure Counts (update : Order) (filled : ℚ) (record : Order) : Prop where
  amount : record.amount = update.amount
  filled : record.filled.value = filled
  bounded : ∀ amount, update.amount = some amount → ∃ left,
    remainder amount record.filled = .ok left ∧ record.remaining = some left
  unbounded : update.amount = none → record.remaining = update.remaining

variable {order update older merged filled : Order} {fill : Trade} {counted : ℚ}

lemma Merged.amount (h : Merged update older merged) : merged.amount = update.amount := by
  cases h <;> rfl

lemma Merged.trades (h : Merged update older merged) (ht : update.trades = []) :
    merged.trades = older.trades := by
  cases h with
  | reported h => exact ht.trans (h ht).symm
  | unbounded => rfl
  | bounded => rfl

lemma Merged.filled_of_le (h : Merged update older merged)
    (hle : older.filled.value ≤ update.filled.value) : merged.filled = update.filled := by
  cases h with
  | reported => rfl
  | unbounded => exact Decimal.max_of_value_le hle
  | bounded => exact Decimal.max_of_value_le hle

lemma Merged.remaining_of_none (h : Merged update older merged) (ha : update.amount = none) :
    merged.remaining = update.remaining := by
  cases h with
  | reported => rfl
  | unbounded => rfl
  | bounded _ _ hs => exact absurd (ha.symm.trans hs) (by simp)

lemma Merged.counts (h : Merged update older merged) (ht : update.trades = [])
    (ho : older.trades ≠ []) (hle : older.filled.value ≤ update.filled.value) :
    Counts update update.filled.value merged := by
  have hfilled := h.filled_of_le hle
  refine ⟨h.amount, congrArg Decimal.value hfilled, fun amount ha => ?_, h.remaining_of_none⟩
  cases h with
  | reported hn => exact absurd (hn ht) ho
  | unbounded _ _ hnone => exact absurd (hnone.symm.trans ha) (by simp)
  | @bounded total left _ _ hs hleft =>
    obtain rfl : total = amount := Option.some.inj (hs.symm.trans ha)
    exact ⟨left, hleft, rfl⟩

lemma Filled.counts (h : Filled order fill filled)
    (hadd : ∀ sum, order.filled.add fill.amount = .ok sum → sum.value = counted) :
    Counts order counted filled := by
  refine ⟨h.amount, hadd _ h.filled, fun amount ha => ?_, fun ha => (h.unbounded ha).1⟩
  obtain ⟨left, hleft, hr, -⟩ := h.bounded amount ha
  exact ⟨left, hleft, hr⟩

lemma Counts.of_merged (h : Counts merged counted filled) (hm : Merged update older merged) :
    Counts update counted filled :=
  ⟨h.amount.trans hm.amount, h.filled, fun amount ha => h.bounded amount (hm.amount.trans ha),
    fun ha => (h.unbounded (hm.amount.trans ha)).trans (hm.remaining_of_none ha)⟩

lemma keys_of_mergeUpdate (h : (mergeUpdate update).runOn older = (.ok (), merged)) :
    RecordKeys.of merged = ⟨(RecordKeys.of update).symbol, (RecordKeys.of update).id,
      (RecordKeys.of update).clientId <|> (RecordKeys.of older).clientId⟩ := by
  have hk : (Identified.merge update).runOn older = (.ok (), merged) := h
  exact KeyedCache.keys_of_merged hk

end Order

namespace OrderCache

variable {cache after : OrderCache} {order update : Order} {fill : Trade} {position : Nat}
  {name : String}

section Found

variable (hsound : ∀ kind, cache.orders.Sound kind) (hcomplete : cache.orders.Complete .id)
  (hf : fill.order = some name)
  (hp : cache.orders.position? fill.symbol name = some position)
  (hm : cache.orders.match? update = some position)
  (hs : cache.orders.slot? position = some order)
  (hn : (RecordKeys.of (update.withIdentityOf order)).Names fill.symbol name)
  (hw : ∀ fill ∈ cache.pending, awaits update fill = false)

include hsound hcomplete hf hp hm hs hn hw

/-- The fill and then the update change the order one after the other. -/
lemma fill_then_update
    (h : (do discard (applyFill fill); discard (upsertOrder update)).runOn cache =
      (.ok (), after)) : ∃ changed filled merged,
        (Order.applyFill fill).runOn order = (.ok changed, filled) ∧
        (Order.mergeUpdate update).runOn filled = (.ok (), merged) ∧
        after.orders.get? fill.symbol name = some merged := by
  obtain ⟨result, between, count, hfirst, hsecond⟩ := Attempt.runOn_discards_eq_ok h
  obtain ⟨changed, filled, hfill, rfl⟩ := applyFill_eq_ok hfirst hf hp hs
  have hkeys := Order.keys_of_applyFill hfill
  obtain ⟨hsymbol, hid⟩ : (RecordKeys.of filled).symbol = (RecordKeys.of order).symbol ∧
      (RecordKeys.of filled).id = (RecordKeys.of order).id := by simp [hkeys]
  have hsound' := fun kind => (hsound kind).exchange hs filled
  have hcomplete' := hcomplete.exchange hs (hcomplete.newTo_of_unchanged hs hsymbol hid)
  -- Both the name and the keys of the update go on leading to the order, wherever it moved.
  obtain ⟨other, hslot, hlookup⟩ := KeyedCache.exists_exchange (hsound .id) hcomplete hs filled
  have hfound : ∀ keys, cache.orders.lookup keys = some position →
      (cache.orders.exchange position order filled).lookup keys = some other := by
    intro keys hl
    obtain ⟨found, kind, hat, hclash⟩ := KeyedCache.clash_of_lookup hsound hl
    obtain rfl : found = order := Option.some.inj (hat.symm.trans hs)
    exact hlookup keys kind (hkeys ▸ hclash) hl
  have hmatch : (cache.orders.exchange position order filled).match? update = some other :=
    hfound _ hm
  obtain ⟨merged, hmerge, rfl⟩ := upsertOrder_eq_ok hsecond hmatch hslot hw
  have hnames : (RecordKeys.of merged).Names fill.symbol name := by
    rw [Order.keys_of_mergeUpdate hmerge, hkeys]
    exact hn
  have hnamed : (cache.orders.exchange position order filled).position? fill.symbol name =
      some other := hfound (.named fill.symbol name) hp
  exact ⟨changed, filled, merged, hfill, hmerge,
    KeyedCache.get?_exchange (hsound' .id) hcomplete' hslot hnamed hnames⟩

lemma update_then_fill
    (h : (do discard (upsertOrder update); discard (applyFill fill)).runOn cache =
      (.ok (), after)) : ∃ merged changed filled,
        (Order.mergeUpdate update).runOn order = (.ok (), merged) ∧
        (Order.applyFill fill).runOn merged = (.ok changed, filled) ∧
        after.orders.get? fill.symbol name = some filled := by
  obtain ⟨count, between, result, hfirst, hsecond⟩ := Attempt.runOn_discards_eq_ok h
  obtain ⟨merged, hmerge, rfl⟩ := upsertOrder_eq_ok hfirst hm hs hw
  have hkeys := Order.keys_of_mergeUpdate hmerge
  have hnames : (RecordKeys.of merged).Names fill.symbol name := by
    rw [hkeys]
    exact hn
  have hsound' := (hsound .id).exchange hs merged
  have hcomplete' := hcomplete.exchange hs
    (hcomplete.newTo_of_match hm hs (by rw [hkeys]) (by rw [hkeys]))
  obtain ⟨kind, hclash⟩ := hnames
  obtain ⟨other, hslot, hlookup⟩ := KeyedCache.exists_exchange (hsound .id) hcomplete hs merged
  have hfound : (cache.orders.exchange position order merged).position? fill.symbol name =
      some other := hlookup _ kind hclash hp
  obtain ⟨changed, filled, hfill, rfl⟩ := applyFill_eq_ok hsecond hf hfound hslot
  refine ⟨merged, changed, filled, hmerge, hfill,
    KeyedCache.get?_exchange hsound' hcomplete' hslot hfound ?_⟩
  rw [Order.keys_of_applyFill hfill]
  exact ⟨kind, hclash⟩

end Found

/-- A fill that waits for its order is added to what the order reports when it comes. -/
lemma parked_fill_counts (hp : cache.orders.Packed) (hl : 0 < cache.orders.limit)
    (hid : update.id ≠ "")
    (hn : ∀ name, update.GoesBy name → cache.orders.contains update.symbol name = false)
    (hw : ∀ fill ∈ cache.pending, awaits update fill = false) (ha : awaits update fill = true)
    (hroom : cache.pending.length < cache.pendingLimit) (hnew : update.hasTrade fill = false)
    (h : (do discard (applyFill fill); discard (upsertOrder update)).runOn cache =
      (.ok (), after)) : ∃ record, Order.Filled update fill record ∧
        ∀ name, update.GoesBy name → after.orders.get? update.symbol name = some record := by
  obtain ⟨orders, happend, hnewest⟩ := append_of_unknown hp hl hid hn
  have hfill : ∀ other ∈ [fill], awaits update other = true := by simpa using ha
  have hfirst := runOn_applyFill_of_unknown ha
    (fun name hname => KeyedCache.get?_of_contains (hn name hname)) hroom
  rw [Attempt.runOn_bind_ok hfirst] at h
  obtain ⟨count, h⟩ := Attempt.runOn_discard_eq_ok h
  rw [runOn_upsertOrder_of_parked happend hw hfill, replay, List.foldlM_cons] at h
  rcases (hnewest cache.pending).filled ha with
    ⟨overflow, next, -, hdone⟩ | ⟨next, record, -, hdone, hnext, hrecord⟩
  · rw [Attempt.runOn_bind_error (Attempt.runOn_bind_error hdone)] at h
    exact absurd (Prod.mk.inj h).1 (by simp)
  · rcases hrecord with ⟨ht, -⟩ | ⟨-, hfilled⟩
    · exact absurd (hnew.symm.trans ht) (by simp)
    · have hstep : (applyParked update.symbol fill >>= fun count =>
          (pure (0 + count) : Attempt OrderCache Nat)).runOn { cache with orders } =
          (.ok (0 + if update.hasTrade fill then 0 else 1), { cache with orders := next }) :=
        Attempt.runOn_bind_ok hdone
      rw [Attempt.runOn_bind_ok hstep] at h
      obtain rfl := (Prod.mk.inj h).2
      exact ⟨record, hfilled, fun name hname => hnext.get? hname⟩

/-- A fill that an update reports already counts once where it comes before the update, and twice
where it comes after it. It counts twice as well where it was parked for an order that reports
it. -/
theorem reported_fill_counts (limit pendingLimit : Nat) (placement : Placement)
    (operations : List OrderOperation) (update : Order) (fill : Trade) (name : String) :
    let start := new limit pendingLimit placement
    let cache := start.run operations
    let fillFirst := (do discard (applyFill fill); discard (upsertOrder update)).runOn cache
    let updateFirst := (do discard (upsertOrder update); discard (applyFill fill)).runOn cache
    (∀ answer ∈ start.answers operations, answer.isOk = true) →
    fill.order = some name → 0 < fill.amount.value →
    (∀ parked ∈ cache.pending, awaits update parked = false) →
    (∀ sum, update.filled.add fill.amount = .ok sum →
      sum.value = update.filled.value + fill.amount.value) →
    (∀ position order, cache.orders.position? fill.symbol name = some position →
      cache.orders.match? update = some position → cache.orders.slot? position = some order →
      (RecordKeys.of (update.withIdentityOf order)).Names fill.symbol name →
      order.hasTrade fill = false → update.trades = [] →
      update.filled.value = order.filled.value + fill.amount.value →
      (∀ sum, order.filled.add fill.amount = .ok sum →
        sum.value = order.filled.value + fill.amount.value) →
      fillFirst.1 = .ok () → updateFirst.1 = .ok () →
      ∃ once twice, fillFirst.2.orders.get? fill.symbol name = some once ∧
        updateFirst.2.orders.get? fill.symbol name = some twice ∧
        update.Counts (order.filled.value + fill.amount.value) once ∧
        update.Counts (order.filled.value + 2 * fill.amount.value) twice) ∧
    (update.id ≠ "" →
      (∀ name, update.GoesBy name → cache.orders.contains update.symbol name = false) →
      awaits update fill = true → cache.pending.length < cache.pendingLimit →
      update.hasTrade fill = false → update.filled.value = fill.amount.value →
      fillFirst.1 = .ok () → ∃ twice, update.Counts (2 * fill.amount.value) twice ∧
        ∀ name, update.GoesBy name →
          fillFirst.2.orders.get? update.symbol name = some twice) := by
  intro start cache fillFirst updateFirst hok hf hpositive hw hexact
  obtain ⟨hsound, hcomplete⟩ := coherent_orders_run limit pendingLimit placement hok
  refine ⟨?_, ?_⟩
  · intro position order hp hm hs hn hnew ht hreport hadd hfirst hsecond
    obtain ⟨_, filled, once, hfill, hmerge, honce⟩ :=
      fill_then_update hsound hcomplete hf hp hm hs hn hw (Prod.ext hfirst rfl)
    obtain ⟨merged, _, twice, hmerge', hfill', htwice⟩ :=
      update_then_fill hsound hcomplete hf hp hm hs hn hw (Prod.ext hsecond rfl)
    refine ⟨once, twice, honce, htwice, ?_, ?_⟩
    · have hfilled := (Order.applyFill_ok hnew hfill).2
      have hle : filled.filled.value ≤ update.filled.value := by
        rw [hadd _ hfilled.filled, hreport]
      have htrades : filled.trades ≠ [] := by simp [hfilled.trades]
      rw [← hreport]
      exact (Order.mergeUpdate_ok hmerge).counts ht htrades hle
    · have hmerged := Order.mergeUpdate_ok hmerge'
      have hle : order.filled.value ≤ update.filled.value := by
        rw [hreport]
        exact le_add_of_nonneg_right hpositive.le
      have hnew' : merged.hasTrade fill = false := by
        rw [Order.hasTrade, hmerged.trades ht]
        exact hnew
      refine ((Order.applyFill_ok hnew' hfill').2.counts fun sum hsum => ?_).of_merged hmerged
      rw [hmerged.filled_of_le hle] at hsum
      rw [hexact sum hsum, hreport]
      ring
  · intro hid hn ha hroom hnew hreport hfirst
    obtain ⟨hp, hl⟩ := packed_orders_run limit pendingLimit placement operations
    obtain ⟨twice, hfilled, hfound⟩ :=
      parked_fill_counts hp hl hid hn hw ha hroom hnew (Prod.ext hfirst rfl)
    refine ⟨twice, hfilled.counts fun sum hsum => ?_, hfound⟩
    rw [hexact sum hsum, hreport]
    ring

/-- Half of an order is filled. The fill counts once before the update that reports it, twice after
it, and twice where it was parked. -/
theorem half_filled_order_counts :
    let one : Decimal := ⟨1, 0, by decide, by decide⟩
    let fill := { Trade.blank with
      id := some "t1", order := some "A", symbol := "BTC/USDT", amount := one }
    let placed := Order.new "A" "BTC/USDT" .buy (some .two) none
    let reported := { placed with filled := one, remaining := some one }
    let fillFirst := do discard (applyFill fill); discard (upsertOrder reported)
    let updateFirst := do discard (upsertOrder reported); discard (applyFill fill)
    let empty := (new 10 10 .keep).run []
    let held := (new 10 10 .keep).run [.upsert placed]
    (∃ once twice, (fillFirst.runOn held).2.orders.get? "BTC/USDT" "A" = some once ∧
        (updateFirst.runOn held).2.orders.get? "BTC/USDT" "A" = some twice ∧
        reported.Counts (placed.filled.value + one.value) once ∧
        reported.Counts (placed.filled.value + 2 * one.value) twice) ∧
      ∃ twice, (fillFirst.runOn empty).2.orders.get? "BTC/USDT" "A" = some twice ∧
        reported.Counts (2 * one.value) twice := by
  intro one fill placed reported fillFirst updateFirst empty held
  have hvalue : one.value = 1 ∧ Decimal.two.value = 2 ∧ placed.filled.value = 0 := by
    norm_num [one, placed, Order.new, Decimal.value, Decimal.two, Decimal.zero]
  have hpositive : 0 < fill.amount.value := by
    change 0 < one.value
    norm_num [hvalue.1]
  have hexact : ∀ sum, reported.filled.add fill.amount = .ok sum →
      sum.value = reported.filled.value + fill.amount.value := by
    intro sum hs
    have htwo : one.add one = .ok .two := by decide +kernel
    obtain rfl : Decimal.two = sum := Except.ok.inj (htwo.symm.trans hs)
    change Decimal.two.value = one.value + one.value
    norm_num [hvalue.1, hvalue.2.1]
  have hadd : ∀ sum, placed.filled.add fill.amount = .ok sum →
      sum.value = placed.filled.value + fill.amount.value := by
    intro sum hs
    obtain rfl : one = sum := Except.ok.inj hs
    rw [hvalue.2.2, zero_add]
  obtain ⟨hheld, -⟩ := reported_fill_counts 10 10 .keep [.upsert placed] reported fill "A"
    (by decide +kernel) rfl hpositive (by decide +kernel) hexact
  obtain ⟨-, hparked⟩ := reported_fill_counts 10 10 .keep [] reported fill "A"
    (by decide +kernel) rfl hpositive (by decide +kernel) hexact
  refine ⟨?_, ?_⟩
  · refine hheld 0 placed (by decide +kernel) (by decide +kernel) rfl ⟨.id, by decide +kernel⟩ rfl
      rfl ?_ hadd (by decide +kernel) (by decide +kernel)
    change one.value = placed.filled.value + one.value
    rw [hvalue.2.2, zero_add]
  · obtain ⟨twice, hcounts, hfound⟩ := hparked (by decide) (fun name _ => rfl) (by decide)
      (by decide) rfl rfl (by decide +kernel)
    exact ⟨twice, hfound "A" (.inl rfl), hcounts⟩

/-- The order that is half filled is closed if the update comes before the fill, and stays open if
it comes after it. -/
theorem reported_fill_closes_order_early :
    let one : Decimal := ⟨1, 0, by decide, by decide⟩
    let fifty : Decimal := ⟨50, 0, by decide, by decide⟩
    let fill := { Trade.blank with
      id := some "t1", order := some "A", symbol := "BTC/USDT", price := fifty, amount := one
      cost := fifty }
    let placed := Order.new "A" "BTC/USDT" .buy (some .two) none
    let reported := { placed with filled := one, remaining := some one }
    let start := new 10 10 .keep
    let shown := fun operations => ((start.run operations).records.map
      fun order => (order.filled, order.remaining, order.status))
    shown [.upsert placed, .fill fill, .upsert reported] = [(one, some one, .live)] ∧
      shown [.upsert placed, .upsert reported, .fill fill] = [(.two, some .zero, .closed)] ∧
      shown [.fill fill, .upsert reported] = [(.two, some .zero, .closed)] := by
  decide +kernel

end OrderCache

end MarketFeed
