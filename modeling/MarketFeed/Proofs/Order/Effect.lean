import MarketFeed.Proofs.Order.Run

/-!
# What operations do to a cache of orders

A fill is refused, parked, or modifies the order that its name leads to. An update is appended; if
that completes, the fills that are parked for it leave the queue and are applied, and what they do
to the orders are modifications by fills. A statement about orders that survives these holds after
every run.
-/

namespace MarketFeed.OrderCache

/-- Each operation of the run has the property at the cache that it meets. -/
def Along (P : OrderCache → OrderOperation → Prop) (cache : OrderCache) :
    List OrderOperation → Prop
  | [] => True
  | operation :: rest => P cache operation ∧ (cache.after operation).Along P rest

instance Along.decidable {P : OrderCache → OrderOperation → Prop}
    [∀ cache operation, Decidable (P cache operation)] :
    (cache : OrderCache) → (operations : List OrderOperation) →
      Decidable (cache.Along P operations)
  | _, [] => isTrue trivial
  | cache, operation :: rest =>
    @instDecidableAnd _ _ inferInstance (Along.decidable (cache.after operation) rest)

/-- No overflow ends the merging of an update. -/
def Merges (cache : OrderCache) : OrderOperation → Prop
  | .upsert order => cache.orders.Completes (.append order)
  | .fill _ => True

instance (cache : OrderCache) : (operation : OrderOperation) → Decidable (cache.Merges operation)
  | .upsert order => inferInstanceAs (Decidable (cache.orders.Completes (.append order)))
  | .fill _ => isTrue trivial

/-- All that a fill can do to the cache. -/
inductive FillEffect (cache : OrderCache) (fill : Trade) : OrderCache → Prop
  | refused (hf : fill.order = none) : FillEffect cache fill cache
  | parked {name : String} (hf : fill.order = some name)
      (hg : cache.orders.get? fill.symbol name = none) : FillEffect cache fill (park fill cache)
  | taken {name : String} (hf : fill.order = some name) : FillEffect cache fill { cache with
      orders := cache.orders.after (.modify fill.symbol name (discard (Order.applyFill fill))) }

/-- All that an update can do to the cache. -/
inductive UpsertEffect (cache : OrderCache) (order : Order) : OrderCache → Prop
  | ended (hc : ¬ cache.orders.Completes (.append order)) : UpsertEffect cache order
      { cache with orders := cache.orders.after (.append order) }
  | replayed {steps : List (KeyedOperation Order)} (hc : cache.orders.Completes (.append order))
      (hs : ∀ step ∈ steps, OrderOperation.Causes [] step) : UpsertEffect cache order
        { cache with
          orders := (cache.orders.after (.append order)).run steps
          pending := cache.pending.filter fun fill => !awaits order fill }

variable {cache : OrderCache} {order : Order} {fill : Trade} {operation : OrderOperation}
  {operations : List OrderOperation}

lemma after_fill (cache : OrderCache) (fill : Trade) :
    cache.after (.fill fill) = ((applyFill fill).runOn cache).2 :=
  congrArg Prod.snd (Attempt.runOn_bind_pure (applyFill fill) OrderAnswer.taken cache)

lemma after_upsert (cache : OrderCache) (order : Order) :
    cache.after (.upsert order) = ((upsertOrder order).runOn cache).2 :=
  congrArg Prod.snd (Attempt.runOn_bind_pure (upsertOrder order) OrderAnswer.replayed cache)

/-- The orders after a modification by a fill are those of the keyed cache. -/
lemma runOn_alter_fill (cache : OrderCache) (symbol name : String) (fill : Trade) :
    ((onOrders (KeyedCache.alter symbol name (Order.applyFill fill))).runOn cache).2 = { cache with
      orders := cache.orders.after (.modify symbol name (discard (Order.applyFill fill))) } := by
  rw [runOn_onOrders, KeyedCache.after, KeyedCache.perform_modify_discard]
  rfl

lemma fillEffect (cache : OrderCache) (fill : Trade) :
    cache.FillEffect fill (cache.after (.fill fill)) := by
  rw [after_fill]
  cases hf : fill.order with
  | none =>
    rw [applyFill, hf]
    exact .refused hf
  | some name =>
    cases hg : cache.orders.get? fill.symbol name with
    | none =>
      rw [runOn_applyFill_of_none hf hg]
      exact .parked hf hg
    | some order =>
      obtain ⟨position, hp, hs⟩ := Option.bind_eq_some_iff.mp hg
      have halter := runOn_alter_of_slot? hp hs (Order.applyFill fill)
      have htaken : ((applyFill fill).runOn cache).2 =
          ((onOrders (KeyedCache.alter fill.symbol name (Order.applyFill fill))).runOn
            cache).2 := by
        rcases hu : (KeyedCache.update position order (Order.applyFill fill)).runOn cache.orders
          with ⟨overflow | changed, orders⟩
        · rw [hu] at halter
          rw [halter, applyFill, hf]
          dsimp only
          rw [Attempt.runOn_bind_error halter]
        · rw [hu] at halter
          rw [halter, runOn_applyFill_of_found hf halter]
      rw [htaken, runOn_alter_fill]
      exact .taken hf

/-- The fills that are parked and the room for them. -/
def queue (cache : OrderCache) : List Trade × Nat := (cache.pending, cache.pendingLimit)

lemma keeps_queue_replay (symbol : String) (applied : Nat) (fills : List Trade) :
    Attempt.Keeps queue (replay symbol applied fills) := by
  refine Attempt.Keeps.foldlM (fun applied fill => ?_) fills applied
  refine Attempt.Keeps.bind ?_ fun count => Attempt.keeps_pure _
  rw [applyParked]
  split
  · exact Attempt.keeps_pure 0
  · refine Attempt.Keeps.bind (fun _ => rfl) fun found => ?_
    split
    · exact Attempt.keeps_pure 1
    · exact Attempt.keeps_pure 0

lemma upsertEffect (cache : OrderCache) (order : Order) :
    cache.UpsertEffect order (cache.after (.upsert order)) := by
  rw [after_upsert]
  have hafter : ((KeyedCache.append order).runOn cache.orders).2 =
      cache.orders.after (.append order) := rfl
  rcases ha : (KeyedCache.append order).runOn cache.orders with ⟨overflow | ⟨⟩, orders⟩
  · have ho : (onOrders (KeyedCache.append order)).runOn cache =
        (.error overflow, { cache with orders }) := by
      rw [runOn_onOrders, ha]
    have hc : ¬ cache.orders.Completes (.append order) := by
      rintro ⟨found, hf⟩
      rw [KeyedCache.answer, KeyedCache.perform, ha] at hf
      exact absurd hf (by simp [Except.map])
    rw [upsertOrder, Attempt.runOn_bind_error ho]
    rw [ha] at hafter
    subst hafter
    exact .ended hc
  · have hc : cache.orders.Completes (.append order) := KeyedCache.completes_append ha
    rw [ha] at hafter
    subst hafter
    rw [runOn_upsertOrder ha]
    set due := cache.pending.filter (awaits order)
    set appended : OrderCache := { cache with
      orders := cache.orders.after (.append order)
      pending := cache.pending.filter fun fill => !awaits order fill }
    obtain ⟨steps, hrun, hsteps, -⟩ := takes_replay (P := OrderOperation.Causes [])
      (fun _ _ fill => ⟨fill, rfl⟩) order.symbol 0 due appended
    have hqueue := keeps_queue_replay order.symbol 0 due appended
    obtain ⟨hpending, hlimit⟩ := Prod.mk.inj hqueue
    generalize ((replay order.symbol 0 due).runOn appended).2 = after at hrun hpending hlimit
    obtain ⟨orders, pending, pendingLimit⟩ := after
    subst hrun hpending hlimit
    exact .replayed hc hsteps

lemma merges_of_ok (h : (cache.answer operation).isOk = true) : cache.Merges operation := by
  cases operation with
  | fill fill => trivial
  | upsert order =>
    rcases hr : (upsertOrder order).runOn cache with ⟨overflow | count, after⟩
    · have he : cache.answer (.upsert order) = .error overflow :=
        congrArg Prod.fst (Attempt.runOn_bind_error hr)
      rw [he] at h
      exact absurd h (by simp [Except.isOk, Except.toBool])
    · exact KeyedCache.completes_append (append_of_upsertOrder hr)

lemma along_merges_of_ok (h : ∀ answer ∈ cache.answers operations, answer.isOk = true) :
    cache.Along Merges operations := by
  induction operations generalizing cache with
  | nil => trivial
  | cons operation rest ih =>
    rw [answers, List.forall_mem_cons] at h
    exact ⟨merges_of_ok h.1, ih h.2⟩

/-! What survives modifications by fills. -/

/-- What holds of a cache and survives every operation with a property holds after a run of them. -/
lemma Along.run {P : OrderCache → OrderOperation → Prop} {Q : OrderCache → Prop}
    (step : ∀ cache, ∀ operation ∈ operations, Q cache → P cache operation →
      Q (cache.after operation))
    (h : Q cache) (hp : cache.Along P operations) : Q (cache.run operations) := by
  induction operations generalizing cache with
  | nil => exact h
  | cons operation rest ih =>
    have hfirst := step cache operation (List.mem_cons_self ..) h hp.1
    exact ih (fun cache other hm => step cache other (List.mem_cons_of_mem _ hm)) hfirst hp.2

/-- A property that each operation has at the cache after those before it holds along the run. -/
lemma along_of_prefixes {P : OrderCache → OrderOperation → Prop}
    (h : ∀ before operation later, operations = before ++ operation :: later →
      P (cache.run before) operation) : cache.Along P operations := by
  induction operations generalizing cache with
  | nil => trivial
  | cons operation rest ih =>
    refine ⟨h [] operation rest rfl, ih fun before other later hs => ?_⟩
    exact h (operation :: before) other later (by rw [hs, List.cons_append])

section Modifications

variable {Q : KeyedCache Order → Prop} (hstep : ∀ orders symbol name fill, Q orders →
  Q (orders.after (.modify symbol name (discard (Order.applyFill fill)))))

include hstep

lemma orders_after_fill (h : Q cache.orders) : Q (cache.after (.fill fill)).orders := by
  have heffect := fillEffect cache fill
  generalize cache.after (.fill fill) = after at heffect
  cases heffect with
  | refused => exact h
  | parked => exact h
  | taken => exact hstep _ _ _ _ h

lemma orders_run_fills {orders : KeyedCache Order} {steps : List (KeyedOperation Order)}
    (h : Q orders) (hs : ∀ step ∈ steps, OrderOperation.Causes [] step) : Q (orders.run steps) := by
  induction steps generalizing orders with
  | nil => exact h
  | cons step rest ih =>
    rw [List.forall_mem_cons] at hs
    refine ih ?_ hs.2
    cases step with
    | append order => exact absurd hs.1 (List.not_mem_nil)
    | modify symbol name change =>
      obtain ⟨fill, rfl⟩ := hs.1
      exact hstep _ _ _ _ h

lemma orders_after_upsert (h : Q (cache.orders.after (.append order))) :
    Q (cache.after (.upsert order)).orders := by
  have heffect := upsertEffect cache order
  generalize cache.after (.upsert order) = after at heffect
  cases heffect with
  | ended => exact h
  | replayed _ hs => exact orders_run_fills hstep h hs

end Modifications

/-- The records are packed and all of them are like this. -/
def Each (P : Order → Prop) (orders : KeyedCache Order) : Prop :=
  orders.Packed ∧ ∀ order ∈ orders.records, P order

lemma each_new (P : Order → Prop) (limit : Nat) (placement : Placement) :
    Each P (.new limit placement) := by
  refine ⟨KeyedCache.packed_new limit placement, fun order hm => ?_⟩
  exact absurd hm (by simp [KeyedCache.new, KeyedCache.records])

section Each

variable {P : Order → Prop} {orders : KeyedCache Order}

lemma Each.after_modify (hP : ∀ fill, Attempt.Maintains P (Order.applyFill fill))
    (orders : KeyedCache Order) (symbol name : String) (fill : Trade) (h : Each P orders) :
    Each P (orders.after (.modify symbol name (discard (Order.applyFill fill)))) := by
  obtain ⟨hp, hall⟩ := h
  refine ⟨KeyedCache.packed_after hp _, hp.forall_records_after hall ?_ (by simp)⟩
  intro position order hm
  have ho := hall order (KeyedCache.mem_records.mpr ⟨position, hm.slot⟩)
  rw [KeyedOperation.change, Attempt.runOn_discard]
  exact hP fill order ho

lemma Each.after_append (h : Each P orders) (hadd : P order)
    (hmerge : ∀ position older, orders.Meets (.append order) position older →
      P ((Order.mergeUpdate order).runOn older).2) : Each P (orders.after (.append order)) := by
  refine ⟨KeyedCache.packed_after h.1 _, h.1.forall_records_after h.2 hmerge ?_⟩
  rintro record ⟨rfl⟩
  exact hadd

end Each

lemma keys_of_modified (fill : Trade) (order : Order) :
    RecordKeys.of ((discard (Order.applyFill fill)).runOn order).2 = .of order := by
  rw [Attempt.runOn_discard]
  exact Order.keeps_keys_applyFill fill order

/-- As long as no overflow ends the merging of an update, orders are found under their ids and no
other ones are found. -/
lemma traceable_after (h : cache.orders.Traceable) (hm : cache.Merges operation) :
    (cache.after operation).orders.Traceable := by
  have hstep : ∀ (orders : KeyedCache Order) symbol name fill, orders.Traceable →
      (orders.after (.modify symbol name (discard (Order.applyFill fill)))).Traceable :=
    fun orders symbol name fill ho => ho.after_modify (keys_of_modified fill)
  cases operation with
  | upsert order => exact orders_after_upsert hstep (h.after_append hm)
  | fill fill => exact orders_after_fill hstep h

lemma traceable_run (h : cache.orders.Traceable) (hm : cache.Along Merges operations) :
    (cache.run operations).orders.Traceable :=
  Along.run (Q := fun cache => cache.orders.Traceable)
    (fun _ _ _ hc hp => traceable_after hc hp) h hm

/-- Without an overflow, the orders are found under their ids and no other ones are found. -/
lemma coherent_orders_run (limit pendingLimit : Nat) (placement : Placement)
    (hok : ∀ answer ∈ (new limit pendingLimit placement).answers operations, answer.isOk = true) :
    let orders := ((new limit pendingLimit placement).run operations).orders
    (∀ kind, orders.Sound kind) ∧ orders.Complete .id := by
  intro orders
  have ht : orders.Traceable :=
    traceable_run (KeyedCache.traceable_new limit placement) (along_merges_of_ok hok)
  exact ⟨ht.sound, ht.complete⟩

end MarketFeed.OrderCache
