import MarketFeed.Cache.Orders
import MarketFeed.Proofs.Cache.Run
import MarketFeed.Proofs.Order.Filling

/-!
# Single operations on a cache of orders

What a fill and an update do to the cache, by what they do to the order that they find.
-/

namespace MarketFeed.OrderCache

variable {α : Type} {cache after : OrderCache} {order record update : Order} {fill : Trade}
  {fills : List Trade} {position : Nat} {symbol name : String}

lemma runOn_onOrders (attempt : Attempt (KeyedCache Order) α) (cache : OrderCache) :
    (onOrders attempt).runOn cache = ((attempt.runOn cache.orders).1,
      { cache with orders := (attempt.runOn cache.orders).2 }) := rfl

/-! A fill modifies the order that its name leads to, and is parked if there is none. -/

lemma runOn_alter_of_slot? (hp : cache.orders.position? symbol name = some position)
    (hs : cache.orders.slot? position = some record) (change : Attempt Order Bool) :
    (onOrders (KeyedCache.alter symbol name change)).runOn cache =
      (((KeyedCache.update position record change).runOn cache.orders).1.map some, { cache with
        orders := ((KeyedCache.update position record change).runOn cache.orders).2 }) := by
  rw [runOn_onOrders, KeyedCache.runOn_alter_of_slot? hp hs]
  rfl

lemma runOn_applyFill_of_found {found : Bool} (hf : fill.order = some name)
    (ha : (onOrders (KeyedCache.alter fill.symbol name (Order.applyFill fill))).runOn cache =
      (.ok (some found), after)) : (applyFill fill).runOn cache =
        (.ok (.ok (if found then .applied else .duplicate)), after) := by
  rw [applyFill, hf]
  dsimp only
  rw [Attempt.runOn_bind_ok ha, Attempt.runOn_pure]

lemma runOn_applyFill_of_none (hf : fill.order = some name)
    (hg : cache.orders.get? fill.symbol name = none) :
    (applyFill fill).runOn cache = (.ok (.ok .parked), park fill cache) := by
  have ha : (onOrders (KeyedCache.alter fill.symbol name (Order.applyFill fill))).runOn cache =
      (.ok none, cache) := by
    rw [runOn_onOrders, KeyedCache.runOn_alter_of_none hg]
  rw [applyFill, hf]
  dsimp only
  rw [Attempt.runOn_bind_ok ha, Attempt.runOn_bind_ok (Attempt.runOn_modify _ _),
    Attempt.runOn_pure]

lemma applyFill_eq_ok {result : Except Fault FillOutcome}
    (h : (applyFill fill).runOn cache = (.ok result, after)) (hf : fill.order = some name)
    (hp : cache.orders.position? fill.symbol name = some position)
    (hs : cache.orders.slot? position = some order) : ∃ changed newer,
      (Order.applyFill fill).runOn order = (.ok changed, newer) ∧
        after = { cache with orders := cache.orders.exchange position order newer } := by
  have halter := runOn_alter_of_slot? hp hs (Order.applyFill fill)
  rcases hr : (Order.applyFill fill).runOn order with ⟨overflow | changed, newer⟩
  · rw [KeyedCache.runOn_update_error hr] at halter
    rw [applyFill, hf] at h
    dsimp only at h
    rw [Attempt.runOn_bind_error halter] at h
    exact absurd (Prod.mk.inj h).1 (by simp)
  · rw [KeyedCache.runOn_update_ok hs hr] at halter
    rw [runOn_applyFill_of_found hf halter] at h
    exact ⟨changed, newer, rfl, (Prod.mk.inj h).2.symm⟩

/-! An update is appended, and takes the fills that are parked for it. -/

/-- Applies parked fills one after the other and counts those that change their order. -/
def replay (symbol : String) (applied : Nat) (fills : List Trade) : Attempt OrderCache Nat :=
  fills.foldlM (fun applied fill => return applied + (← applyParked symbol fill)) applied

lemma runOn_upsertOrder {orders : KeyedCache Order}
    (h : (KeyedCache.append order).runOn cache.orders = (.ok (), orders)) :
    (upsertOrder order).runOn cache =
      (replay order.symbol 0 (cache.pending.filter (awaits order))).runOn
        { cache with orders, pending := cache.pending.filter fun fill => !awaits order fill } := by
  have ho : (onOrders (KeyedCache.append order)).runOn cache = (.ok (), { cache with orders }) := by
    rw [runOn_onOrders, h]
  rw [upsertOrder, Attempt.runOn_bind_ok ho, Attempt.runOn_bind_ok (Attempt.runOn_get _),
    List.partition_eq_filter_filter]
  dsimp only
  rw [Attempt.runOn_bind_ok (Attempt.runOn_modify _ _)]
  rfl

lemma runOn_upsertOrder_of_parked {orders : KeyedCache Order}
    (h : (KeyedCache.append order).runOn cache.orders = (.ok (), orders))
    (hp : ∀ fill ∈ cache.pending, awaits order fill = false)
    (ha : ∀ fill ∈ fills, awaits order fill = true) :
    (upsertOrder order).runOn { cache with pending := cache.pending ++ fills } =
      (replay order.symbol 0 fills).runOn { cache with orders } := by
  have hdue : (cache.pending ++ fills).filter (awaits order) = fills := by
    have hnone : cache.pending.filter (awaits order) = [] := by
      simpa [List.filter_eq_nil_iff] using hp
    rw [List.filter_append, hnone, List.nil_append, List.filter_eq_self]
    exact ha
  have hrest : ((cache.pending ++ fills).filter fun fill => !awaits order fill) = cache.pending := by
    have hall : (cache.pending.filter fun fill => !awaits order fill) = cache.pending := by
      simpa [List.filter_eq_self] using hp
    have hnone : (fills.filter fun fill => !awaits order fill) = [] := by
      simpa [List.filter_eq_nil_iff] using ha
    rw [List.filter_append, hall, hnone, List.append_nil]
  have hu : (upsertOrder order).runOn { cache with pending := cache.pending ++ fills } =
      (replay order.symbol 0 ((cache.pending ++ fills).filter (awaits order))).runOn
        { cache with
          orders, pending := (cache.pending ++ fills).filter fun fill => !awaits order fill } :=
    runOn_upsertOrder h
  rw [hu, hdue, hrest]

lemma runOn_upsertOrder_of_none {orders : KeyedCache Order}
    (h : (KeyedCache.append order).runOn cache.orders = (.ok (), orders))
    (hp : ∀ fill ∈ cache.pending, awaits order fill = false) :
    (upsertOrder order).runOn cache = (.ok 0, { cache with orders }) := by
  have hnone : (upsertOrder order).runOn { cache with pending := cache.pending ++ [] } =
      (.ok 0, { cache with orders }) := runOn_upsertOrder_of_parked h hp (by simp)
  rw [List.append_nil] at hnone
  exact hnone

lemma append_of_upsertOrder {count : Nat}
    (h : (upsertOrder order).runOn cache = (.ok count, after)) :
    (KeyedCache.append order).runOn cache.orders =
      (.ok (), cache.orders.after (.append order)) := by
  rcases ha : (KeyedCache.append order).runOn cache.orders with ⟨overflow | ⟨⟩, appended⟩
  · have ho : (onOrders (KeyedCache.append order)).runOn cache =
        (.error overflow, { cache with orders := appended }) := by
      rw [runOn_onOrders, ha]
    rw [upsertOrder, Attempt.runOn_bind_error ho] at h
    exact absurd (Prod.mk.inj h).1 (by simp)
  · rw [KeyedCache.after, KeyedCache.perform, ha]
    rfl

lemma upsertOrder_eq_ok {count : Nat}
    (h : (upsertOrder update).runOn cache = (.ok count, after))
    (hm : cache.orders.match? update = some position)
    (hs : cache.orders.slot? position = some order)
    (hw : ∀ fill ∈ cache.pending, awaits update fill = false) : ∃ merged,
      (Order.mergeUpdate update).runOn order = (.ok (), merged) ∧
        after = { cache with orders := cache.orders.exchange position order merged } := by
  have happend := KeyedCache.runOn_append_of_slot? hm hs
  rcases hr : (Identified.merge update).runOn order with ⟨overflow | ⟨⟩, merged⟩
  · rw [KeyedCache.runOn_update_error hr] at happend
    have ho : (onOrders (KeyedCache.append update)).runOn cache = (.error overflow,
        { cache with orders := cache.orders.setSlot position (some merged) }) := by
      rw [runOn_onOrders, happend]
    rw [upsertOrder, Attempt.runOn_bind_error ho] at h
    exact absurd (Prod.mk.inj h).1 (by simp)
  · rw [KeyedCache.runOn_update_ok hs hr] at happend
    rw [runOn_upsertOrder_of_none happend hw] at h
    exact ⟨merged, rfl, (Prod.mk.inj h).2.symm⟩

end MarketFeed.OrderCache
