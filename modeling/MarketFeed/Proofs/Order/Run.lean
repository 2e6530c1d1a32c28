import MarketFeed.Proofs.Cache.Coherence
import MarketFeed.Proofs.Order.Step

/-!
# Runs of an order cache

The operations on orders and their fills. On the orders themselves each of them comes to a few
operations of the keyed cache: an update is appended, and a fill, on arrival or parked before,
modifies the order that it names. So whatever holds along the runs of a keyed cache holds here.
-/

namespace MarketFeed

/-- What is done to a cache of orders. -/
inductive OrderOperation where
  | upsert (order : Order)
  | fill (fill : Trade)

inductive OrderAnswer where
  | replayed (count : Nat)
  | taken (result : Except Fault FillOutcome)

/-- What the operations do to an order: they append one of their updates, or they fill an order. -/
def OrderOperation.Causes (operations : List OrderOperation) : KeyedOperation Order → Prop
  | .append order => upsert order ∈ operations
  | .modify _ _ change => ∃ fill, change = discard (Order.applyFill fill)

namespace OrderCache

def perform : OrderOperation → Attempt OrderCache OrderAnswer
  | .upsert order => return .replayed (← upsertOrder order)
  | .fill fill => return .taken (← applyFill fill)

def answer (cache : OrderCache) (operation : OrderOperation) :
    Except Decimal.Overflow OrderAnswer :=
  ((perform operation).runOn cache).1

/-- The cache after an operation, also after one that an overflow ended. -/
def after (cache : OrderCache) (operation : OrderOperation) : OrderCache :=
  ((perform operation).runOn cache).2

def run (cache : OrderCache) (operations : List OrderOperation) : OrderCache :=
  operations.foldl after cache

def answers (cache : OrderCache) :
    List OrderOperation → List (Except Decimal.Overflow OrderAnswer)
  | [] => []
  | operation :: rest => cache.answer operation :: (cache.after operation).answers rest

variable {α β : Type} {cache : OrderCache} {P : KeyedOperation Order → Prop}

/-- What a computation does to the orders is a run of such operations, and each of them completes
if the computation does. -/
def Takes (P : KeyedOperation Order → Prop) (attempt : Attempt OrderCache α) : Prop :=
  ∀ cache, ∃ steps, (attempt.runOn cache).2.orders = cache.orders.run steps ∧
    (∀ step ∈ steps, P step) ∧
    ((attempt.runOn cache).1.isOk = true → cache.orders.Along KeyedCache.Completes steps)

lemma takes_pure (a : α) : Takes P (pure a) :=
  fun _ => ⟨[], rfl, by simp, fun _ => trivial⟩

lemma takes_get : Takes P get :=
  fun _ => ⟨[], rfl, by simp, fun _ => trivial⟩

lemma takes_modify {f : OrderCache → OrderCache} (h : ∀ cache, (f cache).orders = cache.orders) :
    Takes P (modify f) :=
  fun cache => ⟨[], h cache, by simp, fun _ => trivial⟩

lemma Takes.bind {first : Attempt OrderCache α} {next : α → Attempt OrderCache β}
    (hf : Takes P first) (hn : ∀ a, Takes P (next a)) : Takes P (first >>= next) := by
  intro cache
  obtain ⟨steps, hs, hp, hc⟩ := hf cache
  rw [Attempt.runOn_bind]
  rcases hr : first.runOn cache with ⟨overflow | a, between⟩
  · rw [hr] at hs
    exact ⟨steps, hs, hp, fun h => absurd h (by simp [Except.isOk, Except.toBool])⟩
  · rw [hr] at hs hc
    obtain ⟨more, hm, hq, hd⟩ := hn a between
    have hb : between.orders = cache.orders.run steps := hs
    rw [hb] at hm hd
    refine ⟨steps ++ more, ?_, ?_, fun h => (hc rfl).append (hd h)⟩
    · rw [KeyedCache.run, List.foldl_append]
      exact hm
    · intro step hstep
      rcases List.mem_append.mp hstep with h | h
      · exact hp step h
      · exact hq step h

lemma Takes.foldlM {f : β → α → Attempt OrderCache β} (h : ∀ b a, Takes P (f b a)) (as : List α)
    (b : β) : Takes P (as.foldlM f b) := by
  induction as generalizing b with
  | nil => exact takes_pure b
  | cons a rest ih =>
    rw [List.foldlM_cons]
    exact (h b a).bind fun b => ih b

/-- One operation on the orders. -/
lemma takes_onOrders {attempt : Attempt (KeyedCache Order) α} {step : KeyedOperation Order}
    {found : α → Bool} (hp : P step)
    (h : ∀ orders : KeyedCache Order,
      orders.perform step = (attempt.runOn orders).map (Except.map found) id) :
    Takes P (onOrders attempt) := by
  intro cache
  have hs := h cache.orders
  rw [runOn_onOrders]
  refine ⟨[step], ?_, by simpa using hp, fun hk => ⟨?_, trivial⟩⟩
  · change _ = (cache.orders.perform step).2
    rw [hs]
    rfl
  · rw [KeyedCache.Completes, KeyedCache.answer, hs, Prod.map_fst]
    cases hr : (attempt.runOn cache.orders).1 with
    | error overflow =>
      rw [hr] at hk
      exact absurd hk (by simp [Except.isOk, Except.toBool])
    | ok result => exact ⟨found result, rfl⟩

lemma takes_alter (hp : ∀ symbol name fill,
      P (.modify symbol name (discard (Order.applyFill fill)))) (symbol name : String)
    (fill : Trade) : Takes P (onOrders (KeyedCache.alter symbol name (Order.applyFill fill))) :=
  takes_onOrders (hp symbol name fill) fun _ => KeyedCache.perform_modify_discard _

lemma takes_applyFill (hp : ∀ symbol name fill,
    P (.modify symbol name (discard (Order.applyFill fill)))) (fill : Trade) :
    Takes P (applyFill fill) := by
  rw [applyFill]
  split
  · exact takes_pure _
  · refine (takes_alter hp _ _ _).bind fun found => ?_
    split
    · exact takes_pure _
    · exact Takes.bind (takes_modify fun _ => rfl) fun _ => takes_pure _

lemma takes_replay (hp : ∀ symbol name fill,
    P (.modify symbol name (discard (Order.applyFill fill)))) (symbol : String) (applied : Nat)
    (fills : List Trade) : Takes P (replay symbol applied fills) := by
  have hparked : ∀ fill, Takes P (applyParked symbol fill) := by
    intro fill
    rw [applyParked]
    split
    · exact takes_pure 0
    · refine (takes_alter hp _ _ _).bind fun found => ?_
      split
      · exact takes_pure 1
      · exact takes_pure 0
  exact Takes.foldlM (fun applied fill => (hparked fill).bind fun count => takes_pure _) fills applied

lemma takes_upsertOrder {order : Order} (ha : P (.append order)) (hp : ∀ symbol name fill,
    P (.modify symbol name (discard (Order.applyFill fill)))) : Takes P (upsertOrder order) := by
  have happend : ∀ orders : KeyedCache Order, orders.perform (.append order) =
      ((KeyedCache.append order).runOn orders).map (Except.map fun _ => true) id := fun _ => rfl
  refine (takes_onOrders ha happend).bind fun _ => takes_get.bind fun cache => ?_
  exact Takes.bind (takes_modify fun _ => rfl) fun _ => takes_replay hp order.symbol 0 _

lemma takes_perform {operation : OrderOperation} {operations : List OrderOperation}
    (h : operation ∈ operations) :
    Takes (OrderOperation.Causes operations) (perform operation) := by
  have hp : ∀ symbol name fill,
      OrderOperation.Causes operations (.modify symbol name (discard (Order.applyFill fill))) :=
    fun symbol name fill => ⟨fill, rfl⟩
  cases operation with
  | upsert order => exact (takes_upsertOrder h hp).bind fun count => takes_pure _
  | fill fill => exact (takes_applyFill hp fill).bind fun result => takes_pure _

/-- The orders after a run are those after a run of the keyed cache. -/
theorem orders_run (cache : OrderCache) (operations : List OrderOperation) :
    ∃ steps, (cache.run operations).orders = cache.orders.run steps ∧
      (∀ step ∈ steps, OrderOperation.Causes operations step) ∧
      ((∀ answer ∈ cache.answers operations, answer.isOk = true) →
        cache.orders.Along KeyedCache.Completes steps) := by
  suffices hs : ∀ all, operations ⊆ all → ∃ steps,
      (cache.run operations).orders = cache.orders.run steps ∧
      (∀ step ∈ steps, OrderOperation.Causes all step) ∧
      ((∀ answer ∈ cache.answers operations, answer.isOk = true) →
        cache.orders.Along KeyedCache.Completes steps) from hs operations (List.Subset.refl _)
  intro all hall
  induction operations generalizing cache with
  | nil => exact ⟨[], rfl, by simp, fun _ => trivial⟩
  | cons operation rest ih =>
    obtain ⟨hm, hrest⟩ := List.cons_subset.mp hall
    obtain ⟨steps, hs, hp, hc⟩ := takes_perform hm cache
    obtain ⟨more, ht, hq, hd⟩ := ih (cache.after operation) hrest
    have ha : (cache.after operation).orders = cache.orders.run steps := hs
    rw [ha] at ht hd
    refine ⟨steps ++ more, ?_, ?_, fun hk => ?_⟩
    · rw [KeyedCache.run, List.foldl_append]
      exact ht
    · intro step hstep
      rcases List.mem_append.mp hstep with h | h
      · exact hp step h
      · exact hq step h
    · rw [answers, List.forall_mem_cons] at hk
      exact (hc hk.1).append (hd hk.2)

/-- The orders of a reachable cache are packed, and it has room for one. -/
lemma packed_orders_run (limit pendingLimit : Nat) (placement : Placement)
    (operations : List OrderOperation) :
    let orders := ((new limit pendingLimit placement).run operations).orders
    orders.Packed ∧ 0 < orders.limit := by
  intro orders
  have hp : (new limit pendingLimit placement).orders.Packed := KeyedCache.packed_new limit placement
  obtain ⟨steps, hs, -, -⟩ := orders_run (new limit pendingLimit placement) operations
  have hr : orders = (new limit pendingLimit placement).orders.run steps := hs
  have hl : orders.limit = max limit 1 := by
    rw [hr]
    exact (Prod.mk.inj (KeyedCache.settings_run hp steps)).1
  rw [hl, hr]
  exact ⟨KeyedCache.packed_run hp steps, by omega⟩

/-- What holds of every update holds of every order after a run without an overflow, if merging and
filling orders keep it up. -/
theorem forall_records_run {P : Order → Prop} {operations : List OrderOperation}
    (hp : cache.orders.Packed) (hr : ∀ order ∈ cache.records, P order)
    (hok : ∀ answer ∈ cache.answers operations, answer.isOk = true)
    (hupsert : ∀ order, .upsert order ∈ operations → P order)
    (hmerge : ∀ newer older merged, P newer → P older → Order.Merged newer older merged → P merged)
    (hfill : ∀ order fill filled, P order → Order.Filled order fill filled → P filled) :
    ∀ order ∈ (cache.run operations).records, P order := by
  obtain ⟨steps, hs, hcauses, hc⟩ := orders_run cache operations
  have hstep : ∀ (orders : KeyedCache Order) step,
      (orders.Packed ∧ ∀ order ∈ orders.records, P order) →
      orders.Completes step ∧ OrderOperation.Causes operations step →
      (orders.after step).Packed ∧ ∀ order ∈ (orders.after step).records, P order := by
    rintro orders step ⟨hpacked, hrecords⟩ ⟨hcompletes, hcause⟩
    refine ⟨KeyedCache.packed_after hpacked step,
      hpacked.forall_records_after hrecords (fun position older hm => ?_) ?_⟩
    · obtain ⟨newer, hchange, -⟩ := KeyedCache.after_of_meets hm hcompletes
      have holder := hrecords older (KeyedCache.mem_records.mpr ⟨position, hm.slot⟩)
      rw [hchange]
      cases step with
      | append order =>
        exact hmerge _ _ _ (hupsert order hcause) holder (Order.mergeUpdate_ok hchange)
      | modify symbol name change =>
        obtain ⟨fill, rfl⟩ := hcause
        obtain ⟨changed, hcase⟩ := Attempt.runOn_discard_eq_ok hchange
        rcases (Order.applyFill_cases hcase).2 with ⟨-, rfl⟩ | ⟨-, hfilled⟩
        · exact holder
        · exact hfill older fill newer holder hfilled
    · rintro order rfl
      exact hupsert order hcause
  have hrun := KeyedCache.Along.run hstep ⟨hp, hr⟩
    ((hc hok).and (KeyedCache.Along.of_forall (fun step hm _ => hcauses step hm) _))
  rw [records, hs]
  exact hrun.2

end OrderCache

end MarketFeed
