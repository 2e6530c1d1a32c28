import MarketFeed.Proofs.Order.Effect

/-!
# Fills that wait for an order

A fill is parked while no order is found under its name, and leaves the queue with the update that
brings its order. An order comes to its id by being added or by a merge, both with an update of that
id. So a fill waits for an order by an id that an order of its symbol has only where an overflow
ended such a merge: the order has the id by then, and the queue was not looked at.
-/

namespace MarketFeed

namespace Order

variable {a b order : Order} {symbol id : String}

lemma id_eq_of_keys (h : (RecordKeys.of a).id = (RecordKeys.of b).id) : a.id = b.id := by
  by_cases ha : a.id = ""
  · by_contra hne
    have hb : b.id ≠ "" := by rwa [ha, eq_comm] at hne
    rw [keys_of_id hb] at h
    exact hne (id_of_keys h).1
  · rw [keys_of_id ha] at h
    exact (id_of_keys h.symm).1.symm

lemma carries_id_iff : (RecordKeys.of order).Carries .id symbol id ↔
    order.symbol = symbol ∧ order.id = id ∧ id ≠ "" := by
  constructor
  · rintro ⟨hs, hid⟩
    exact ⟨hs, id_of_keys hid⟩
  · rintro ⟨rfl, rfl, hne⟩
    rw [keys_of_id hne]
    exact ⟨rfl, rfl⟩

end Order

namespace OrderCache

/-- If the order has this id, none of the fills names it. -/
def Unawaited (symbol id : String) (fills : List Trade) (order : Order) : Prop :=
  (RecordKeys.of order).Carries .id symbol id →
    ∀ fill ∈ fills, fill.symbol = symbol → fill.order ≠ some id

/-- An overflow ends the merging of an update with this id. -/
def EndsMerging (symbol id : String) (cache : OrderCache) (operation : OrderOperation) : Prop :=
  ∃ update, operation = .upsert update ∧ (RecordKeys.of update).Carries .id symbol id ∧
    ¬ cache.Merges operation

variable {cache : OrderCache} {order older : Order} {fill : Trade} {fills : List Trade}
  {orders : KeyedCache Order} {operation : OrderOperation} {symbol id : String}

lemma awaits_of_carries (h : (RecordKeys.of order).Carries .id symbol id)
    (hs : fill.symbol = symbol) (hf : fill.order = some id) : awaits order fill = true := by
  obtain ⟨hsymbol, hid, -⟩ := Order.carries_id_iff.mp h
  rw [awaits, hf, hs, hsymbol, Option.any_some, hid]
  simp

/-- Also where an overflow ends it, a merge leaves an order with the symbol and the id of the
update. -/
lemma carries_mergeUpdate : (RecordKeys.of ((Order.mergeUpdate order).runOn older).2).Carries
    .id symbol id ↔ (RecordKeys.of order).Carries .id symbol id := by
  rw [keys_mergeUpdate]
  rfl

/-! An order with the id is found under it. -/

/-- The records are packed, and an order with this id is found under it. -/
def Findable (symbol id : String) (orders : KeyedCache Order) : Prop :=
  orders.Packed ∧ orders.CompleteAt .id symbol id

lemma carries_of_endsGiving (h : orders.EndsGiving .id symbol id (.append order)) :
    (RecordKeys.of order).Carries .id symbol id ∧ ¬ orders.Completes (.append order) := by
  obtain ⟨position, older, newer, hb, -, hnew⟩ := h
  obtain ⟨overflow, hr⟩ := hb.ended
  rw [show newer = ((Order.mergeUpdate order).runOn older).2 from (congrArg Prod.snd hr).symm,
    carries_mergeUpdate] at hnew
  exact ⟨hnew, hb.not_completes⟩

lemma Findable.after_modify (orders : KeyedCache Order) (given name : String) (fill : Trade)
    (h : Findable symbol id orders) :
    Findable symbol id (orders.after (.modify given name (discard (Order.applyFill fill)))) := by
  refine ⟨KeyedCache.packed_after h.1 _, h.2.after h.1 ?_ fun older _ => ?_⟩
  · rintro ⟨position, older, newer, hb, hold, hnew⟩
    obtain ⟨overflow, hr⟩ := hb.ended
    have hkeys := keys_of_modified fill older
    rw [show (discard (Order.applyFill fill)).runOn older = _ from hr] at hkeys
    exact hold (hkeys ▸ hnew)
  · rw [keys_of_modified]

lemma findable_after (h : Findable symbol id cache.orders)
    (hn : ¬ cache.EndsMerging symbol id operation) :
    Findable symbol id (cache.after operation).orders := by
  cases operation with
  | fill fill => exact orders_after_fill Findable.after_modify h
  | upsert order =>
    refine orders_after_upsert Findable.after_modify ⟨KeyedCache.packed_after h.1 _, ?_⟩
    refine h.2.after h.1 (fun hends => ?_) trivial
    obtain ⟨hcarries, hc⟩ := carries_of_endsGiving hends
    exact hn ⟨order, rfl, hcarries, hc⟩

/-! No fill waits for it. -/

lemma maintains_unawaited_applyFill (fills : List Trade) (fill : Trade) :
    Attempt.Maintains (Unawaited symbol id fills) (Order.applyFill fill) := by
  intro order h
  rw [Unawaited, Order.keeps_keys_applyFill fill order]
  exact h

/-- Whether the update is merged or added, the order has its symbol and its id. -/
lemma each_unawaited_append (h : Each (Unawaited symbol id fills) orders)
    (hnew : Unawaited symbol id fills order) :
    Each (Unawaited symbol id fills) (orders.after (.append order)) := by
  refine h.after_append hnew fun position older _ => ?_
  rw [Unawaited, carries_mergeUpdate]
  exact hnew

/-- A fill that is parked names no order that is there. -/
lemma each_unawaited_park {name : String}
    (h : Each (Unawaited symbol id cache.pending) cache.orders)
    (hc : cache.orders.CompleteAt .id symbol id) (hf : fill.order = some name)
    (hg : cache.orders.get? fill.symbol name = none) :
    Each (Unawaited symbol id (park fill cache).pending) cache.orders := by
  refine ⟨h.1, fun order hm hcarries other ho hs => ?_⟩
  have hcases : other ∈ cache.pending ∨ other = fill := by
    rw [park, List.mem_append, List.mem_singleton] at ho
    refine ho.imp_left fun hkept => ?_
    split_ifs at hkept
    · exact List.mem_of_mem_tail hkept
    · exact hkept
  rcases hcases with hold | rfl
  · exact h.2 order hm hcarries other hold hs
  · intro hnamed
    obtain rfl : name = id := Option.some.inj (hf.symm.trans hnamed)
    have hfound := hc.get?_of_mem hm hcarries
    rw [← hs, hg] at hfound
    exact absurd hfound (by simp)

lemma each_unawaited_after (hf : Findable symbol id cache.orders)
    (h : Each (Unawaited symbol id cache.pending) cache.orders)
    (hn : ¬ cache.EndsMerging symbol id operation) :
    Each (Unawaited symbol id (cache.after operation).pending) (cache.after operation).orders := by
  have hstep : ∀ fills orders given name fill, Each (Unawaited symbol id fills) orders →
      Each (Unawaited symbol id fills)
        (orders.after (.modify given name (discard (Order.applyFill fill)))) :=
    fun fills => Each.after_modify (maintains_unawaited_applyFill fills)
  cases operation with
  | fill fill =>
    have heffect := fillEffect cache fill
    generalize cache.after (.fill fill) = after at heffect
    cases heffect with
    | refused => exact h
    | parked hnamed hg => exact each_unawaited_park h hf.2 hnamed hg
    | taken => exact hstep _ _ _ _ _ h
  | upsert order =>
    have heffect := upsertEffect cache order
    generalize cache.after (.upsert order) = after at heffect
    cases heffect with
    | ended hc =>
      refine each_unawaited_append h fun hcarries => ?_
      exact absurd ⟨order, rfl, hcarries, hc⟩ hn
    | replayed _ hs =>
      refine orders_run_fills (hstep _) (each_unawaited_append ⟨h.1, ?_⟩ ?_) hs
      · intro other ho hcarries fill hm
        exact h.2 other ho hcarries fill (List.mem_of_mem_filter hm)
      · -- A fill that stays does not wait for the order of this update.
        intro hcarries fill hm hsymbol hnamed
        have hstays := List.of_mem_filter hm
        rw [awaits_of_carries hcarries hsymbol hnamed] at hstays
        exact absurd hstays (by decide)

lemma unawaited_run (h : Findable symbol id cache.orders)
    (hp : Each (Unawaited symbol id cache.pending) cache.orders)
    {operations : List OrderOperation}
    (hn : cache.Along (fun cache operation => ¬ cache.EndsMerging symbol id operation) operations) :
    Each (Unawaited symbol id (cache.run operations).pending) (cache.run operations).orders := by
  have hrun := Along.run
    (Q := fun cache => Findable symbol id cache.orders ∧
      Each (Unawaited symbol id cache.pending) cache.orders)
    (fun cache operation _ hq hn => ⟨findable_after hq.1 hn, each_unawaited_after hq.1 hq.2 hn⟩)
    ⟨h, hp⟩ hn
  exact hrun.2

/-- An overflow that ends a merge leaves the queue alone, and an order that has the symbol and the
id of the update. -/
lemma after_ended_merge (h : ¬ cache.Merges (.upsert order)) :
    (cache.after (.upsert order)).pending = cache.pending ∧
      ∃ left ∈ (cache.after (.upsert order)).records,
        left.symbol = order.symbol ∧ left.id = order.id := by
  have heffect := upsertEffect cache order
  generalize cache.after (.upsert order) = after at heffect
  cases heffect with
  | replayed hc => exact absurd hc h
  | ended =>
    refine ⟨rfl, ?_⟩
    cases ha : cache.orders.answer (.append order) with
    | ok found => exact absurd ⟨found, ha⟩ h
    | error overflow =>
      obtain ⟨position, older, newer, hb, hafter⟩ := KeyedCache.breaks_of_answer ha
      have hslot : (cache.orders.setSlot position (some newer)).slot? position = some newer := by
        rw [KeyedCache.slot?_setSlot hb.slot, Function.update_self]
      obtain ⟨overflow, hr⟩ := hb.ended
      have hkeys : RecordKeys.of newer = .of (order.withIdentityOf older) := by
        rw [← keys_mergeUpdate order older]
        exact congrArg (fun result => RecordKeys.of result.2) hr.symm
      refine ⟨newer, ?_, congrArg RecordKeys.symbol hkeys,
        Order.id_eq_of_keys (b := order.withIdentityOf older) (congrArg RecordKeys.id hkeys)⟩
      rw [records, hafter]
      exact KeyedCache.mem_records.mpr ⟨position, hslot⟩

/-- Where a fill waits for an order that is there under the id that the fill names, an overflow
ended the merging of an earlier update of that id. For that leaves the fills where they are, beside
an order with the symbol and the id of the update. -/
theorem known_order_awaited_only_after_ended_merge (limit pendingLimit : Nat)
    (placement : Placement) (operations : List OrderOperation) :
    let start := new limit pendingLimit placement
    let cache := start.run operations
    (∀ fill ∈ cache.pending, ∀ order ∈ cache.records, order.id ≠ "" →
      fill.symbol = order.symbol → fill.order = some order.id →
      ∃ before update later, operations = before ++ .upsert update :: later ∧
        update.symbol = order.symbol ∧ update.id = order.id ∧
        ¬ (start.run before).Merges (.upsert update)) ∧
    ∀ update, ¬ cache.Merges (.upsert update) →
      (cache.after (.upsert update)).pending = cache.pending ∧
      ∃ order ∈ (cache.after (.upsert update)).records,
        order.symbol = update.symbol ∧ order.id = update.id := by
  intro start cache
  refine ⟨fun fill hf order ho hid hs hnamed => ?_, fun update hm => after_ended_merge hm⟩
  by_contra hnone
  have hcarries : (RecordKeys.of order).Carries .id order.symbol order.id :=
    Order.carries_id_iff.mpr ⟨rfl, rfl, hid⟩
  have halong : start.Along
      (fun cache operation => ¬ cache.EndsMerging order.symbol order.id operation) operations := by
    refine along_of_prefixes fun before operation later hsplit hends => ?_
    obtain ⟨update, rfl, hupdate, hm⟩ := hends
    obtain ⟨hsymbol, hupdated, -⟩ := Order.carries_id_iff.mp hupdate
    exact hnone ⟨before, update, later, hsplit, hsymbol, hupdated, hm⟩
  have hfindable : Findable order.symbol order.id start.orders :=
    ⟨KeyedCache.packed_new limit placement, KeyedCache.completeAt_of_empty rfl⟩
  have hrun := unawaited_run hfindable (each_new _ limit placement) halong
  exact hrun.2 order ho hcarries fill hf hs hnamed

/-- A fill waits for an order by the id that an update gives it. What is left of the amount of the
update is too large, so the order has the id and the fill waits on. -/
theorem fill_waits_after_ended_merge :
    let one : Decimal := ⟨1, 0, by decide, by decide⟩
    let least : Decimal := ⟨-79228162514264337593543950335, 0, by decide, by decide⟩
    let fill := fun id name => { Trade.blank with
      id := some id, order := some name, symbol := "BTC/USDT", amount := one }
    let named := fun id amount => { Order.new id "BTC/USDT" .buy amount none with
      clientId := some "c" }
    let operations : List OrderOperation := [.upsert (named "" none), .fill (fill "t1" "c"),
      .fill (fill "t2" "A"), .upsert (named "A" (some least))]
    let start := new 10 10 .keep
    let cache := start.run operations
    ∃ waiting ∈ cache.pending, ∃ order ∈ cache.records, order.id ≠ "" ∧
      waiting.symbol = order.symbol ∧ waiting.order = some order.id ∧
      ∃ before update later, operations = before ++ .upsert update :: later ∧
        update.symbol = order.symbol ∧ update.id = order.id ∧
        ¬ (start.run before).Merges (.upsert update) := by
  intro one least fill named operations start cache
  have hwaiting : ∃ waiting ∈ cache.pending,
      waiting.symbol = "BTC/USDT" ∧ waiting.order = some "A" := by
    decide +kernel
  have hknown : ∃ order ∈ cache.records, order.symbol = "BTC/USDT" ∧ order.id = "A" := by
    decide +kernel
  obtain ⟨waiting, hw, hfor, hnamed⟩ := hwaiting
  obtain ⟨order, ho, hsymbol, hid⟩ := hknown
  have hne : order.id ≠ "" := by
    rw [hid]
    decide
  have hs : waiting.symbol = order.symbol := hfor.trans hsymbol.symm
  rw [← hid] at hnamed
  exact ⟨waiting, hw, order, ho, hne, hs, hnamed,
    (known_order_awaited_only_after_ended_merge 10 10 .keep operations).1 waiting hw order ho hne hs
      hnamed⟩

/-- After the overflow the order has its id and one fill on record, and the fill that names it by
this id is in the queue, also when the order is filled again. -/
theorem ended_merge_leaves_fill_waiting :
    let one : Decimal := ⟨1, 0, by decide, by decide⟩
    let least : Decimal := ⟨-79228162514264337593543950335, 0, by decide, by decide⟩
    let fill := fun id name => { Trade.blank with
      id := some id, order := some name, symbol := "BTC/USDT", amount := one }
    let named := fun id amount => { Order.new id "BTC/USDT" .buy amount none with
      clientId := some "c" }
    let operations : List OrderOperation := [.upsert (named "" none), .fill (fill "t1" "c"),
      .fill (fill "t2" "A"), .upsert (named "A" (some least))]
    let cache := (new 10 10 .keep).run operations
    ¬ (∀ fill ∈ cache.pending, ∀ order ∈ cache.records, order.id ≠ "" →
      fill.symbol = order.symbol → fill.order ≠ some order.id) ∧
    cache.records.map (fun order => (order.id, order.trades.map (·.id))) =
      [("A", [some "t1"])] ∧
    cache.pending.map (fun fill => (fill.id, fill.order)) = [(some "t2", some "A")] ∧
    (cache.after (.fill (fill "t1" "c"))).pending.map (·.id) = [some "t2"] := by
  decide +kernel

end OrderCache

end MarketFeed
