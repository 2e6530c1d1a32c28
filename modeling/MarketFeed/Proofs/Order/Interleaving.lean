import MarketFeed.Proofs.Cache.Lookup
import MarketFeed.Proofs.Order.Run
import Mathlib.Data.List.Basic

/-!
# Orders and fills in any order

A fill that comes before its order is parked, and applied when the order comes. An order that is new
goes to the newest slot, where its names find it and where it stays while it is filled. So it makes
no difference which of its fills came before it.
-/

namespace MarketFeed

/-- The fills that repeat no trade id, neither of the trades before them nor of each other. -/
def Trade.unrepeated (trades : List Trade) : List Trade → List Trade
  | [] => []
  | fill :: rest =>
    if fill.id ≠ none ∧ fill.id ∈ trades.map (·.id) then unrepeated trades rest
    else fill :: unrepeated (trades ++ [fill]) rest

namespace Order

variable {order : Order} {fill : Trade} {name : String}

/-- A name that a fill can have for the order. -/
def GoesBy (order : Order) (name : String) : Prop := order.id = name ∨ order.clientId = some name

lemma GoesBy.names (hn : order.GoesBy name) (h : order.id ≠ "") :
    (RecordKeys.of order).Names order.symbol name := by
  rw [keys_of_id h]
  rcases hn with hi | hc
  · exact ⟨.id, rfl, name, congrArg some hi, rfl⟩
  · exact ⟨.clientId, rfl, name, hc, rfl⟩

end Order

namespace OrderCache

/-- Takes fills one after the other. -/
def feed : List Trade → Attempt OrderCache Unit
  | [] => return ()
  | fill :: rest => do
    discard (applyFill fill)
    feed rest

variable {cache : OrderCache} {order record : Order} {fill : Trade} {fills : List Trade}
  {position : Nat} {name : String}

lemma awaits_iff : awaits order fill = true ↔
    fill.symbol = order.symbol ∧ ∃ name, fill.order = some name ∧ order.GoesBy name := by
  rw [awaits, Bool.and_eq_true, beq_iff_eq, Option.any_eq_true]
  simp only [Bool.or_eq_true, beq_iff_eq, Order.GoesBy, @eq_comm _ order.id]

/-! Fills that come first. -/

lemma runOn_applyFill_of_unknown (ha : awaits order fill = true)
    (hn : ∀ name, order.GoesBy name → cache.orders.get? order.symbol name = none)
    (hroom : cache.pending.length < cache.pendingLimit) : (discard (applyFill fill)).runOn cache =
      (.ok (), { cache with pending := cache.pending ++ [fill] }) := by
  obtain ⟨hs, name, hf, hg⟩ := awaits_iff.mp ha
  rw [Attempt.runOn_discard, runOn_applyFill_of_none hf (hs ▸ hn name hg), park,
    if_neg (Nat.not_le.mpr hroom)]
  rfl

/-- While there is room, fills of an order that is not known are parked in their order. -/
lemma runOn_feed_of_none (ha : ∀ fill ∈ fills, awaits order fill = true)
    (hn : ∀ name, order.GoesBy name → cache.orders.get? order.symbol name = none)
    (hroom : cache.pending.length + fills.length ≤ cache.pendingLimit) :
    (feed fills).runOn cache = (.ok (), { cache with pending := cache.pending ++ fills }) := by
  induction fills generalizing cache with
  | nil => simp [feed]
  | cons fill rest ih =>
    rw [List.length_cons] at hroom
    have hd := runOn_applyFill_of_unknown (ha fill (List.mem_cons_self ..)) hn (by omega)
    have hrest : (feed rest).runOn { cache with pending := cache.pending ++ [fill] } =
        (.ok (), { cache with pending := cache.pending ++ [fill] ++ rest }) :=
      ih (fun other hm => ha other (List.mem_cons_of_mem _ hm)) hn (by simp; omega)
    rw [feed, Attempt.runOn_bind_ok hd, hrest, List.append_assoc, List.singleton_append]

/-! Fills of the newest order. -/

/-- The order is in the newest slot, as the record that it has become, and its names find it. -/
structure Newest (cache : OrderCache) (order : Order) (position : Nat) (record : Order) : Prop where
  slot : cache.orders.slot? position = some record
  last : position + 1 = cache.orders.nextPosition
  found : ∀ name, order.GoesBy name → cache.orders.position? order.symbol name = some position

lemma Newest.get? (h : cache.Newest order position record) (hn : order.GoesBy name) :
    cache.orders.get? order.symbol name = some record := by
  rw [KeyedCache.get?, h.found name hn]
  exact h.slot

/-- Parked or not, a fill of the newest order does the same to it. -/
lemma Newest.filled (h : cache.Newest order position record) (ha : awaits order fill = true) :
    (∃ overflow orders,
      (discard (applyFill fill)).runOn cache = (.error overflow, { cache with orders }) ∧
      (applyParked order.symbol fill).runOn cache = (.error overflow, { cache with orders })) ∨
    ∃ orders newer,
      (discard (applyFill fill)).runOn cache = (.ok (), { cache with orders }) ∧
      (applyParked order.symbol fill).runOn cache =
        (.ok (if record.hasTrade fill then 0 else 1), { cache with orders }) ∧
      { cache with orders : OrderCache }.Newest order position newer ∧
      (record.hasTrade fill = true ∧ newer = record ∨
        record.hasTrade fill = false ∧ Order.Filled record fill newer) := by
  obtain ⟨hs, name, hf, hn⟩ := awaits_iff.mp ha
  have halter := runOn_alter_of_slot? (h.found name hn) h.slot (Order.applyFill fill)
  rcases hr : (Order.applyFill fill).runOn record with ⟨overflow | changed, newer⟩
  · rw [KeyedCache.runOn_update_error hr] at halter
    refine .inl ⟨overflow, cache.orders.setSlot position (some newer), ?_, ?_⟩
    · rw [Attempt.runOn_discard, applyFill, hf, hs]
      dsimp only
      rw [Attempt.runOn_bind_error halter]
      rfl
    · rw [applyParked, hf]
      dsimp only
      rw [Attempt.runOn_bind_error halter]
  · rw [KeyedCache.runOn_update_ok h.slot hr, KeyedCache.exchange_of_newest h.last] at halter
    obtain ⟨hc, hdone⟩ := Order.applyFill_cases hr
    refine .inr ⟨cache.orders.replace position record newer, newer, ?_, ?_, ?_, hdone⟩
    · have hfound := runOn_applyFill_of_found hf (hs ▸ halter)
      rw [Attempt.runOn_discard, hfound]
      rfl
    · rw [applyParked, hf]
      dsimp only
      rw [Attempt.runOn_bind_ok halter, hc]
      cases record.hasTrade fill <;> rfl
    · refine ⟨KeyedCache.slot?_replace h.slot newer, ?_, fun name hn => ?_⟩
      · rw [KeyedCache.nextPosition_replace]
        exact h.last
      · rw [KeyedCache.position?_eq_lookup]
        exact KeyedCache.lookup_replace_of_keys_eq (Order.keys_of_applyFill hr) (h.found name hn)

/-- Replaying parked fills of the newest order is to take them now. -/
lemma Newest.replayed (h : cache.Newest order position record)
    (ha : ∀ fill ∈ fills, awaits order fill = true) (applied : Nat) :
    (∃ overflow orders, (feed fills).runOn cache = (.error overflow, { cache with orders }) ∧
      (replay order.symbol applied fills).runOn cache = (.error overflow, { cache with orders })) ∨
    ∃ orders newer, (feed fills).runOn cache = (.ok (), { cache with orders }) ∧
      (replay order.symbol applied fills).runOn cache =
        (.ok (applied + (Trade.unrepeated record.trades fills).length), { cache with orders }) ∧
      { cache with orders : OrderCache }.Newest order position newer ∧
      newer.trades = record.trades ++ Trade.unrepeated record.trades fills := by
  induction fills generalizing cache record applied with
  | nil => exact .inr ⟨cache.orders, record, rfl, rfl, h, (List.append_nil _).symm⟩
  | cons fill rest ih =>
    have hrest := fun other hm => ha other (List.mem_cons_of_mem fill hm)
    rw [feed, replay, List.foldlM_cons]
    rcases h.filled (ha fill (List.mem_cons_self ..)) with
      ⟨overflow, orders, hfeed, hparked⟩ | ⟨orders, newer, hfeed, hparked, hnewest, hdone⟩
    · refine .inl ⟨overflow, orders, Attempt.runOn_bind_error hfeed, ?_⟩
      exact Attempt.runOn_bind_error (Attempt.runOn_bind_error hparked)
    · have hstep : (applyParked order.symbol fill >>= fun count =>
          (pure (applied + count) : Attempt OrderCache Nat)).runOn cache =
          (.ok (applied + if record.hasTrade fill then 0 else 1), { cache with orders }) := by
        rw [Attempt.runOn_bind_ok hparked, Attempt.runOn_pure]
      have hcount : record.trades ++ Trade.unrepeated record.trades (fill :: rest) =
            newer.trades ++ Trade.unrepeated newer.trades rest ∧
          (Trade.unrepeated record.trades (fill :: rest)).length =
            (if record.hasTrade fill then 0 else 1) +
              (Trade.unrepeated newer.trades rest).length := by
        rw [Trade.unrepeated]
        rcases hdone with ⟨ht, rfl⟩ | ⟨ht, hfilled⟩
        · rw [if_pos (Order.hasTrade_iff.mp ht), if_pos ht, Nat.zero_add]
          exact ⟨rfl, rfl⟩
        · have hnew : ¬ record.hasTrade fill = true := by simp [ht]
          rw [if_neg (mt Order.hasTrade_iff.mpr hnew), if_neg hnew, hfilled.trades]
          simp [Nat.add_comm]
      rw [Attempt.runOn_bind_ok hfeed, Attempt.runOn_bind_ok hstep, hcount.1, hcount.2,
        ← Nat.add_assoc]
      exact ih hnewest hrest _

lemma feed_append (early late : List Trade) :
    feed (early ++ late) = (do feed early; feed late) := by
  induction early with
  | nil => rfl
  | cons fill rest ih =>
    rw [List.cons_append, feed, feed, ih, bind_assoc]

/-! Where the order comes between its fills. -/

/-- An order that no name leads to is added as the newest one. -/
lemma append_of_unknown (hp : cache.orders.Packed) (hl : 0 < cache.orders.limit)
    (hid : order.id ≠ "")
    (hn : ∀ name, order.GoesBy name → cache.orders.contains order.symbol name = false) :
    ∃ orders, (KeyedCache.append order).runOn cache.orders = (.ok (), orders) ∧
      ∀ pending, { cache with orders, pending : OrderCache }.Newest order
        cache.orders.nextPosition order := by
  have hnone : ∀ name, order.GoesBy name →
      cache.orders.find? .id (.named order.symbol name) = none ∧
        cache.orders.find? .clientId (.named order.symbol name) = none :=
    fun name hname => KeyedCache.lookup_eq_none.mp (KeyedCache.contains_eq_false.mp (hn name hname))
  have hm : cache.orders.match? order = none := by
    rw [KeyedCache.match?_eq_lookup, KeyedCache.lookup_eq_none, Order.keys_of_id hid]
    refine ⟨(hnone order.id (.inl rfl)).1, ?_⟩
    cases hc : order.clientId with
    | none => rfl
    | some clientId => exact (hnone clientId (.inr hc)).2
  obtain ⟨hslot, hnext, hlookup⟩ := hp.newest_accept hl order
  refine ⟨cache.orders.accept order, KeyedCache.runOn_append_of_none (by rw [hm]; rfl), ?_⟩
  refine fun pending => ⟨hslot, hnext.symm, fun name hname => ?_⟩
  obtain ⟨kind, hclash⟩ := hname.names hid
  exact hlookup _ kind hclash (hnone name hname).1

/-- An order may come before, between or after its fills: as long as the fills that come first are
not too many to be parked, the cache is the same in the end, or after the same overflow. The order
then has these fills without repetitions, and it has taken as many as that from the parked ones. -/
theorem order_between_fills (limit pendingLimit : Nat) (placement : Placement)
    (operations : List OrderOperation) (order : Order) (early late : List Trade) :
    let cache := (new limit pendingLimit placement).run operations
    order.id ≠ "" →
    (∀ name, order.GoesBy name → cache.orders.contains order.symbol name = false) →
    (∀ fill ∈ cache.pending, awaits order fill = false) →
    (∀ fill ∈ early ++ late, awaits order fill = true) →
    cache.pending.length + early.length ≤ cache.pendingLimit →
    let final := (do discard (upsertOrder order); feed (early ++ late)).runOn cache
    (do feed early; discard (upsertOrder order); feed late).runOn cache = final ∧
      (∀ count after, (do feed early; upsertOrder order).runOn cache = (.ok count, after) →
        count = (Trade.unrepeated order.trades early).length) ∧
      final.2.pending = cache.pending ∧
      (final.1 = .ok () → ∃ record : Order,
        (∀ name, order.GoesBy name → final.2.orders.get? order.symbol name = some record) ∧
        record.trades = order.trades ++ Trade.unrepeated order.trades (early ++ late)) := by
  intro cache hid hn hpending hfills hroom final
  obtain ⟨hp, hl⟩ := packed_orders_run limit pendingLimit placement operations
  obtain ⟨orders, happend, hnewest⟩ := append_of_unknown hp hl hid hn
  have hearly : ∀ fill ∈ early, awaits order fill = true :=
    fun fill hm => hfills fill (List.mem_append_left _ hm)
  have hparked : (feed early).runOn cache =
      (.ok (), { cache with pending := cache.pending ++ early }) :=
    runOn_feed_of_none hearly (fun name hname => KeyedCache.get?_of_contains (hn name hname)) hroom
  have hreplay := runOn_upsertOrder_of_parked happend hpending hearly
  have hfirst : (discard (upsertOrder order)).runOn cache = (.ok (), { cache with orders }) := by
    rw [Attempt.runOn_discard, runOn_upsertOrder_of_none happend hpending]
    rfl
  have hfinal : final = (feed (early ++ late)).runOn { cache with orders } :=
    Attempt.runOn_bind_ok hfirst
  -- Upserting now replays what was parked, and that is to feed it now.
  obtain ⟨hsame, hcount⟩ :
      (discard (upsertOrder order)).runOn { cache with pending := cache.pending ++ early } =
        (feed early).runOn { cache with orders } ∧
      ∀ count after, (upsertOrder order).runOn { cache with pending := cache.pending ++ early } =
        (.ok count, after) → count = (Trade.unrepeated order.trades early).length := by
    rw [Attempt.runOn_discard, hreplay]
    rcases (hnewest cache.pending).replayed hearly 0 with
      ⟨overflow, next, hfeed, hdone⟩ | ⟨next, newer, hfeed, hdone, -, -⟩
    · rw [hfeed, hdone]
      exact ⟨rfl, fun count after hc => absurd (Prod.mk.inj hc).1 (by simp)⟩
    · rw [hfeed, hdone, Nat.zero_add]
      exact ⟨rfl, fun count after hc => (Except.ok.inj (Prod.mk.inj hc).1).symm⟩
  refine ⟨?_, ?_, ?_⟩
  · rw [hfinal, feed_append, Attempt.runOn_bind_ok hparked, Attempt.runOn_bind, hsame,
      Attempt.runOn_bind]
  · intro count after hc
    rw [Attempt.runOn_bind_ok hparked] at hc
    exact hcount count after hc
  · rcases (hnewest cache.pending).replayed hfills 0 with
      ⟨overflow, next, hfeed, -⟩ | ⟨next, newer, hfeed, -, hnext, htrades⟩
    · rw [hfinal, hfeed]
      exact ⟨rfl, fun hok => absurd hok (by simp)⟩
    · rw [hfinal, hfeed]
      exact ⟨rfl, fun _ => ⟨newer, fun name hname => hnext.get? hname, htrades⟩⟩

/-- Fills of an order come by both of its names, some of them twice, before and after it. The order
takes the place of the only other one, whose fill stays parked. -/
theorem order_between_repeated_fills :
    let fill := fun id name => { Trade.blank with
      id := some id, order := some name, symbol := "BTC/USDT", amount := .two }
    let order := fun id => Order.new id "BTC/USDT" .buy none none
    let named := { order "2" with clientId := some "c" }
    let operations : List OrderOperation := [.fill (fill "t0" "9"), .upsert (order "1")]
    let early := [fill "t1" "c", fill "t1" "2", fill "t2" "2"]
    let late := [fill "t2" "c", fill "t3" "2"]
    let cache := (new 1 4 .moveToNewest).run operations
    let final := (do discard (upsertOrder named); feed (early ++ late)).runOn cache
    (∀ name, named.GoesBy name → cache.orders.contains named.symbol name = false) ∧
      (do feed early; discard (upsertOrder named); feed late).runOn cache = final ∧
      ((do feed early; upsertOrder named).runOn cache).1.toOption = some 2 ∧
      final.2.pending.map (·.id) = [some "t0"] ∧
      final.2.records.map (fun order => (order.id, order.filled.value, order.trades.map (·.id))) =
        [("2", 6, [some "t1", some "t2", some "t3"])] := by
  intro fill order named operations early late cache final
  have hn : ∀ name, named.GoesBy name → cache.orders.contains named.symbol name = false := by
    rintro name (rfl | hc)
    · decide +kernel
    · obtain rfl : "c" = name := Option.some.inj hc
      decide +kernel
  obtain ⟨hsame, -, -, -⟩ := order_between_fills 1 4 .moveToNewest operations named early late
    (by decide) hn (by decide +kernel) (by decide +kernel) (by decide +kernel)
  exact ⟨hn, hsame, by decide +kernel, by decide +kernel, by decide +kernel⟩

end OrderCache

end MarketFeed
