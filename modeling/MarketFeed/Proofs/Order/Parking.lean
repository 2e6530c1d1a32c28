import MarketFeed.Proofs.Cache.Lookup
import MarketFeed.Proofs.Order.Effect
import MarketFeed.Proofs.Order.Interleaving

/-!
# What becomes of parked fills

An update takes the fills that name its order from the queue and applies each of them where its name
leads. The name is one of the keys that the order is entered under, so the fill comes to an order.
The empty id is the exception: it counts as a name here, and no order is entered under it.
-/

namespace MarketFeed.OrderCache

/-- The queue has this much room and keeps to it. -/
def Roomy (limit : Nat) (cache : OrderCache) : Prop :=
  cache.pendingLimit = limit ∧ cache.pending.length ≤ limit

/-- The trades that the orders have on record. -/
def recorded (orders : KeyedCache Order) : List Trade := orders.records.flatMap (·.trades)

/-- An order that the fill names is like this. -/
def Reaches (P : Order → Prop) (orders : KeyedCache Order) (fill : Trade) : Prop :=
  ∃ order ∈ orders.records,
    (∃ name ∈ fill.order, (RecordKeys.of order).Names fill.symbol name) ∧ P order

/-- The orders are still there, with their keys and their trades and perhaps with more of these. -/
def Grows (orders after : KeyedCache Order) : Prop :=
  ∀ order ∈ orders.records, ∃ later ∈ after.records,
    RecordKeys.of later = .of order ∧ order.trades <+: later.trades

/-- What becomes of a fill that leaves the queue. -/
inductive Fate where
  | taken
  | repeated
  | lost
deriving DecidableEq

/-- The fills that are taken. -/
def Fate.takenOf (fates : List (Trade × Fate)) : List Trade :=
  fates.filterMap fun (fill, fate) => if fate = taken then some fill else none

/-- A fill is taken by an order that it names or repeats a trade id there. It is lost if its name
leads nowhere. -/
structure Sorted (orders after : KeyedCache Order) (fates : List (Trade × Fate)) : Prop where
  trades : (recorded after).Perm (recorded orders ++ Fate.takenOf fates)
  taken : ∀ fill, (fill, .taken) ∈ fates → Reaches (fill ∈ ·.trades) after fill
  repeated : ∀ fill, (fill, .repeated) ∈ fates → Reaches (·.hasTrade fill = true) after fill
  lost : ∀ fill, (fill, .lost) ∈ fates → ∀ name ∈ fill.order,
    orders.contains fill.symbol name = false

variable {cache last : OrderCache} {order newer : Order} {fill : Trade} {fate : Fate}
  {fills : List Trade} {fates : List (Trade × Fate)} {orders between later : KeyedCache Order}
  {limit position applied count : Nat} {symbol name : String}

/-! The queue. -/

lemma Roomy.park (h : cache.Roomy limit) (hl : 0 < limit) : (park fill cache).Roomy limit := by
  obtain ⟨rfl, hlen⟩ := h
  refine ⟨rfl, ?_⟩
  rw [OrderCache.park]
  dsimp only
  rw [List.length_append, List.length_singleton]
  split_ifs with hfull
  · rw [List.length_tail]
    omega
  · omega

lemma Roomy.after (h : cache.Roomy limit) (hl : 0 < limit) (operation : OrderOperation) :
    (cache.after operation).Roomy limit := by
  cases operation with
  | fill fill =>
    have heffect := fillEffect cache fill
    generalize cache.after (.fill fill) = after at heffect
    cases heffect with
    | refused => exact h
    | parked => exact h.park hl
    | taken => exact h
  | upsert order =>
    have heffect := upsertEffect cache order
    generalize cache.after (.upsert order) = after at heffect
    cases heffect with
    | ended => exact h
    | replayed => exact ⟨h.1, (List.length_filter_le ..).trans h.2⟩

lemma Roomy.run (h : cache.Roomy limit) (hl : 0 < limit) (operations : List OrderOperation) :
    (cache.run operations).Roomy limit := by
  induction operations generalizing cache with
  | nil => exact h
  | cons operation rest ih => exact ih (h.after hl operation)

/-! One parked fill. -/

lemma applyParked_eq_ok (hf : fill.order = some name)
    (h : (applyParked symbol fill).runOn cache = (.ok count, last)) :
    cache.orders.get? symbol name = none ∧ count = 0 ∧ last = cache ∨
      ∃ position order changed newer, cache.orders.position? symbol name = some position ∧
        cache.orders.slot? position = some order ∧
        (Order.applyFill fill).runOn order = (.ok changed, newer) ∧
        count = changed.toNat ∧
        last = { cache with orders := cache.orders.exchange position order newer } := by
  rw [applyParked, hf] at h
  dsimp only at h
  cases hg : cache.orders.get? symbol name with
  | none =>
    have ha : (onOrders (KeyedCache.alter symbol name (Order.applyFill fill))).runOn cache =
        (.ok none, cache) := by
      rw [runOn_onOrders, KeyedCache.runOn_alter_of_none hg]
    rw [Attempt.runOn_bind_ok ha] at h
    obtain ⟨hcount, hlast⟩ := Prod.mk.inj h
    exact .inl ⟨rfl, (Except.ok.inj hcount).symm, hlast.symm⟩
  | some order =>
    obtain ⟨position, hp, hs⟩ := Option.bind_eq_some_iff.mp hg
    have halter := runOn_alter_of_slot? hp hs (Order.applyFill fill)
    rcases hr : (Order.applyFill fill).runOn order with ⟨overflow | changed, newer⟩
    · rw [KeyedCache.runOn_update_error hr] at halter
      rw [Attempt.runOn_bind_error halter] at h
      exact absurd (Prod.mk.inj h).1 (by simp)
    · rw [KeyedCache.runOn_update_ok hs hr] at halter
      rw [Attempt.runOn_bind_ok halter] at h
      refine .inr ⟨position, order, changed, newer, hp, hs, hr, ?_⟩
      cases changed with
      | false =>
        obtain ⟨hcount, hlast⟩ := Prod.mk.inj h
        exact ⟨(Except.ok.inj hcount).symm, hlast.symm⟩
      | true =>
        obtain ⟨hcount, hlast⟩ := Prod.mk.inj h
        exact ⟨(Except.ok.inj hcount).symm, hlast.symm⟩

lemma Grows.refl (orders : KeyedCache Order) : Grows orders orders :=
  fun order hm => ⟨order, hm, rfl, List.prefix_rfl⟩

lemma Grows.trans (h : Grows orders between) (hl : Grows between later) : Grows orders later := by
  intro order hm
  obtain ⟨next, hnext, hk, ht⟩ := h order hm
  obtain ⟨last, hlast, hk', ht'⟩ := hl next hnext
  exact ⟨last, hlast, hk'.trans hk, ht.trans ht'⟩

lemma Reaches.grows {P : Order → Prop} (h : Reaches P orders fill) (hg : Grows orders later)
    (hP : ∀ order next : Order, order.trades <+: next.trades → P order → P next) :
    Reaches P later fill := by
  obtain ⟨order, hm, ⟨name, hname, hnames⟩, hp⟩ := h
  obtain ⟨next, hnext, hk, ht⟩ := hg order hm
  exact ⟨next, hnext, ⟨name, hname, hk ▸ hnames⟩, hP order next ht hp⟩

lemma hasTrade_of_prefix (h : order.trades <+: newer.trades) (ht : order.hasTrade fill = true) :
    newer.hasTrade fill = true := by
  obtain ⟨hid, hm⟩ := Order.hasTrade_iff.mp ht
  exact Order.hasTrade_iff.mpr ⟨hid, List.map_subset _ h.subset hm⟩

/-- An order gave way to one with the same keys and more trades. -/
lemma exchange_grows {more : List Trade} (hs : orders.slot? position = some order)
    (hk : RecordKeys.of newer = .of order) (ht : newer.trades = order.trades ++ more) :
    newer ∈ (orders.exchange position order newer).records ∧
      Grows orders (orders.exchange position order newer) ∧
      (recorded (orders.exchange position order newer)).Perm (recorded orders ++ more) := by
  obtain ⟨others, hbefore, hafter⟩ := KeyedCache.exists_others hs
  have hexchanged := (hafter newer).1
  refine ⟨hexchanged.mem_iff.mpr (List.mem_cons_self ..), fun record hm => ?_, ?_⟩
  · rcases List.mem_cons.mp (hbefore.mem_iff.mp hm) with rfl | ho
    · exact ⟨newer, hexchanged.mem_iff.mpr (List.mem_cons_self ..), hk, ht ▸ List.prefix_append ..⟩
    · exact ⟨record, hexchanged.mem_iff.mpr (List.mem_cons_of_mem _ ho), rfl, List.prefix_rfl⟩
  · have hold : (recorded orders).Perm (order.trades ++ others.flatMap (·.trades)) :=
      hbefore.flatMap_right _
    have hnew : (recorded (orders.exchange position order newer)).Perm
        (newer.trades ++ others.flatMap (·.trades)) :=
      hexchanged.flatMap_right _
    rw [ht, List.append_assoc] at hnew
    refine hnew.trans (.trans (List.perm_append_comm.append_left _) ?_)
    rw [← List.append_assoc]
    exact hold.symm.append_right more

/-- Where an order keeps its keys, all names go on leading somewhere. -/
lemma contains_exchange (h : ∀ kind, orders.Sound kind) (hs : orders.slot? position = some order)
    (hk : RecordKeys.of newer = .of order) (hc : orders.contains symbol name = true) :
    (orders.exchange position order newer).contains symbol name = true := by
  obtain ⟨kind, hf⟩ := KeyedCache.contains_iff.mp hc
  exact KeyedCache.contains_iff.mpr ⟨kind, (h kind).find?_exchange_of_keys_eq hs hk hf⟩

lemma sorted_of_filled {changed : Bool} (hs : orders.slot? position = some order)
    (hn : ∃ name ∈ fill.order, (RecordKeys.of order).Names fill.symbol name)
    (h : (Order.applyFill fill).runOn order = (.ok changed, newer)) :
    Grows orders (orders.exchange position order newer) ∧ ∃ fate,
      Sorted orders (orders.exchange position order newer) [(fill, fate)] ∧
        changed.toNat = (Fate.takenOf [(fill, fate)]).length := by
  have hk := Order.keys_of_applyFill h
  have hnames : ∃ name ∈ fill.order, (RecordKeys.of newer).Names fill.symbol name := hk ▸ hn
  obtain ⟨rfl, ⟨hold, rfl⟩ | ⟨hnew, hfilled⟩⟩ := Order.applyFill_cases h
  · have hmore : newer.trades = newer.trades ++ [] := by rw [List.append_nil]
    obtain ⟨hm, hgrows, htrades⟩ := exchange_grows hs hk hmore
    refine ⟨hgrows, .repeated, ⟨htrades, by simp, fun other ho => ?_, by simp⟩, by rw [hold]; rfl⟩
    obtain rfl : other = fill := by simpa using ho
    exact ⟨newer, hm, hnames, hold⟩
  · obtain ⟨hm, hgrows, htrades⟩ := exchange_grows hs hk hfilled.trades
    refine ⟨hgrows, .taken, ⟨htrades, fun other ho => ?_, by simp, by simp⟩, by rw [hnew]; rfl⟩
    obtain rfl : other = fill := by simpa using ho
    exact ⟨newer, hm, hnames, by simp [hfilled.trades]⟩

lemma applyParked_sorted (ht : cache.orders.Traceable) (hf : fill.order = some name)
    (h : (applyParked fill.symbol fill).runOn cache = (.ok count, last)) :
    last.orders.Traceable ∧ Grows cache.orders last.orders ∧
      (∀ symbol name, cache.orders.contains symbol name = true →
        last.orders.contains symbol name = true) ∧
      ∃ fate, Sorted cache.orders last.orders [(fill, fate)] ∧
        count = (Fate.takenOf [(fill, fate)]).length := by
  rcases applyParked_eq_ok hf h with
    ⟨hg, rfl, rfl⟩ | ⟨position, order, changed, newer, hp, hs, hr, rfl, rfl⟩
  · refine ⟨ht, .refl _, by simp, .lost, ⟨by simp [Fate.takenOf], by simp, by simp, ?_⟩, rfl⟩
    intro other hm found hfound
    obtain rfl : other = fill := by simpa using hm
    obtain rfl : name = found := Option.some.inj (hf.symm.trans hfound)
    by_contra hc
    obtain ⟨position, record, hposition, hrecord, -⟩ :=
      KeyedCache.exists_of_contains ht.sound (Bool.not_eq_false _ ▸ hc)
    rw [KeyedCache.get?, hposition, Option.bind_some, hrecord] at hg
    exact absurd hg (by simp)
  · have hk := Order.keys_of_applyFill hr
    have hl : cache.orders.lookup (.named fill.symbol name) = some position := hp
    obtain ⟨found, kind, hfound, hclash⟩ := KeyedCache.clash_of_lookup ht.sound hl
    obtain rfl : found = order := Option.some.inj (hfound.symm.trans hs)
    obtain ⟨hgrows, hsorted⟩ := sorted_of_filled hs ⟨name, hf, kind, hclash⟩ hr
    exact ⟨ht.exchange hs hk, hgrows, fun _ _ => contains_exchange ht.sound hs hk, hsorted⟩

/-! All parked fills of an update. -/

lemma Fate.takenOf_cons (first : Trade × Fate) (fates : List (Trade × Fate)) :
    takenOf (first :: fates) = takenOf [first] ++ takenOf fates := by
  rw [takenOf, ← List.singleton_append, List.filterMap_append]
  rfl

lemma Sorted.cons (h : Sorted orders between [(fill, fate)]) (hr : Sorted between later fates)
    (hg : Grows between later) (hc : ∀ symbol name, orders.contains symbol name = true →
      between.contains symbol name = true) : Sorted orders later ((fill, fate) :: fates) := by
  refine ⟨?_, ?_, ?_, ?_⟩
  · rw [Fate.takenOf_cons, ← List.append_assoc]
    exact hr.trades.trans (h.trades.append_right _)
  · intro other hm
    rcases List.mem_cons.mp hm with he | hrest
    · refine (h.taken other (by simp [he])).grows hg fun order next hp hin => hp.subset hin
    · exact hr.taken other hrest
  · intro other hm
    rcases List.mem_cons.mp hm with he | hrest
    · exact (h.repeated other (by simp [he])).grows hg fun order next hp => hasTrade_of_prefix hp
    · exact hr.repeated other hrest
  · intro other hm found hfound
    rcases List.mem_cons.mp hm with he | hrest
    · exact h.lost other (by simp [he]) found hfound
    · have hnone := hr.lost other hrest found hfound
      by_contra hsome
      rw [hc _ _ (Bool.not_eq_false _ ▸ hsome)] at hnone
      exact absurd hnone (by simp)

lemma replay_sorted (ht : cache.orders.Traceable)
    (hf : ∀ fill ∈ fills, fill.symbol = symbol ∧ ∃ name, fill.order = some name)
    (h : (replay symbol applied fills).runOn cache = (.ok count, last)) :
    last.orders.Traceable ∧ Grows cache.orders last.orders ∧ ∃ fates,
      fates.map Prod.fst = fills ∧ count = applied + (Fate.takenOf fates).length ∧
        Sorted cache.orders last.orders fates := by
  induction fills generalizing cache applied with
  | nil =>
    obtain ⟨hcount, rfl⟩ := Prod.mk.inj h
    refine ⟨ht, .refl _, [], rfl, (Except.ok.inj hcount).symm, ?_⟩
    exact ⟨by simp [Fate.takenOf], by simp, by simp, by simp⟩
  | cons fill rest ih =>
    rw [List.forall_mem_cons] at hf
    obtain ⟨⟨rfl, name, hname⟩, hrest⟩ := hf
    rw [replay, List.foldlM_cons] at h
    obtain ⟨sum, between, hfirst, h⟩ := Attempt.runOn_bind_eq_ok h
    obtain ⟨one, next, hone, hpure⟩ := Attempt.runOn_bind_eq_ok hfirst
    obtain ⟨hsum, rfl⟩ := Prod.mk.inj hpure
    obtain rfl : applied + one = sum := Except.ok.inj hsum
    obtain ⟨htraceable, hgrows, hcontains, fate, hsorted, rfl⟩ :=
      applyParked_sorted ht hname hone
    obtain ⟨hlast, hlater, fates, rfl, rfl, hfates⟩ := ih htraceable hrest h
    refine ⟨hlast, hgrows.trans hlater, (fill, fate) :: fates, rfl, ?_,
      hsorted.cons hfates hlater hcontains⟩
    rw [Fate.takenOf_cons (fill, fate) fates, List.length_append, Nat.add_assoc]

/-! The update itself. -/

/-- An update leaves its order where the keys of the update lead somewhere, also if they lead to
another order. -/
lemma contains_appended (ht : orders.Traceable) (hl : 0 < orders.limit)
    (hc : orders.Completes (.append order))
    (hn : (RecordKeys.of order).Names order.symbol name) :
    (orders.after (.append order)).contains order.symbol name = true := by
  obtain ⟨kind, hclash⟩ := hn
  obtain ⟨found, hf⟩ := hc
  have ho := KeyedCache.perform_outcome orders (.append order)
  rw [hf] at ho
  generalize orders.after (.append order) = after at ho
  refine KeyedCache.contains_iff.mpr ⟨kind, ?_⟩
  cases ho with
  | @changed _ position older newer hm hc =>
    have hmerge : (Identified.merge order).runOn older = (.ok (), newer) := hc
    refine (ht.sound kind).find?_exchange_of_clash hm.slot ?_
    rw [KeyedCache.keys_of_merged hmerge]
    obtain ⟨-, key, hkey, hnamed⟩ := hclash
    refine ⟨rfl, key, ?_, hnamed⟩
    cases kind with
    | id => exact hkey
    | clientId =>
      have hclient : (RecordKeys.of order).clientId = some key := hkey
      rw [RecordKeys.key, hclient]
      rfl
  | added _ =>
    rw [ht.packed.find?_accept_of_clash hl hclash]
    simp

/-- A fill that an update takes and that finds no order names the empty id. -/
lemma empty_of_lost (ht : orders.Traceable) (hl : 0 < orders.limit)
    (hc : orders.Completes (.append order)) (ha : awaits order fill = true)
    (hlost : ∀ name ∈ fill.order,
      (orders.after (.append order)).contains fill.symbol name = false) :
    fill.order = some "" ∧ order.id = "" ∧ order.clientId ≠ some "" := by
  obtain ⟨hsymbol, name, hf, hname⟩ := awaits_iff.mp ha
  have hnot : ¬ (RecordKeys.of order).Names order.symbol name := by
    intro hn
    have hfound := contains_appended ht hl hc hn
    have hnone := hlost name hf
    rw [hsymbol, hfound] at hnone
    exact absurd hnone (by simp)
  have hid : order.id = "" := by
    by_contra hid
    exact hnot (hname.names hid)
  have hclient : order.clientId ≠ some name := by
    intro hclient
    exact hnot ⟨.clientId, rfl, name, hclient, rfl⟩
  obtain rfl : "" = name := hid.symm.trans (hname.resolve_right hclient)
  exact ⟨hf, hid, hclient⟩

/-- The empty id leads to an order with the empty client id only. -/
lemma not_reaches_of_empty (hf : fill.order = some "")
    (hn : ∀ order ∈ orders.records, order.clientId ≠ some "") (P : Order → Prop) :
    ¬ Reaches P orders fill := by
  rintro ⟨order, ho, ⟨name, hname, kind, -, key, hkey, hnamed⟩, -⟩
  obtain rfl : "" = name := Option.some.inj (hf.symm.trans hname)
  cases kind with
  | id =>
    obtain rfl : "" = key := Option.some.inj hnamed
    exact (Order.id_of_keys hkey).2 rfl
  | clientId =>
    obtain rfl : "" = key := Option.some.inj hnamed
    exact hn order ho hkey

/-- At most as many fills are parked as there is room for. As long as no overflow ends the merging
of an update, an update that completes leaves the fills alone that do not name its order. Each of
the others is taken by an order that it names or repeats a trade id there, unless it names the empty
id and the order has that for its id. Such a fill is lost if no order has the empty client id. -/
theorem parked_fills_kept_unless_unnamed (limit pendingLimit : Nat) (placement : Placement)
    (operations : List OrderOperation) :
    let start := new limit pendingLimit placement
    let cache := start.run operations
    cache.pending.length ≤ max pendingLimit 1 ∧
    (start.Along Merges operations → ∀ order count after,
      (upsertOrder order).runOn cache = (.ok count, after) →
      after.pending = (cache.pending.filter fun fill => !awaits order fill) ∧
      ∃ fates, fates.map Prod.fst = cache.pending.filter (awaits order) ∧
        count = (Fate.takenOf fates).length ∧
        (recorded after.orders).Perm
          (recorded (cache.orders.after (.append order)) ++ Fate.takenOf fates) ∧
        ∀ fill fate, (fill, fate) ∈ fates →
          (fate = .taken → Reaches (fill ∈ ·.trades) after.orders fill) ∧
          (fate = .repeated → Reaches (·.hasTrade fill = true) after.orders fill) ∧
          (fate = .lost → fill.order = some "" ∧ order.id = "" ∧ order.clientId ≠ some "") ∧
          (fill.order = some "" → (∀ other ∈ after.records, other.clientId ≠ some "") →
            fate = .lost)) := by
  intro start cache
  have hstart : start.Roomy (max pendingLimit 1) := ⟨rfl, Nat.zero_le _⟩
  have hroomy : cache.Roomy (max pendingLimit 1) := hstart.run (by omega) operations
  refine ⟨hroomy.2, fun hm order count after h => ?_⟩
  have ht : cache.orders.Traceable := traceable_run (KeyedCache.traceable_new limit placement) hm
  obtain ⟨-, hl⟩ := packed_orders_run limit pendingLimit placement operations
  have happend := append_of_upsertOrder h
  have hc : cache.orders.Completes (.append order) := KeyedCache.completes_append happend
  rw [runOn_upsertOrder happend] at h
  have hqueue := keeps_queue_replay order.symbol 0 (cache.pending.filter (awaits order))
    { cache with
      orders := cache.orders.after (.append order)
      pending := cache.pending.filter fun fill => !awaits order fill }
  rw [h] at hqueue
  refine ⟨(Prod.mk.inj hqueue).1, ?_⟩
  have hdue : ∀ fill ∈ cache.pending.filter (awaits order),
      fill.symbol = order.symbol ∧ ∃ name, fill.order = some name := by
    intro fill hf
    obtain ⟨hsymbol, name, hname, -⟩ := awaits_iff.mp (List.of_mem_filter hf)
    exact ⟨hsymbol, name, hname⟩
  obtain ⟨-, -, fates, hfates, hcount, hsorted⟩ := replay_sorted (ht.after_append hc) hdue h
  rw [Nat.zero_add] at hcount
  refine ⟨fates, hfates, hcount, hsorted.trades, fun fill fate hf => ⟨?_, ?_, ?_, ?_⟩⟩
  · rintro rfl
    exact hsorted.taken fill hf
  · rintro rfl
    exact hsorted.repeated fill hf
  · rintro rfl
    have hin : fill ∈ cache.pending.filter (awaits order) :=
      hfates ▸ List.mem_map_of_mem hf
    exact empty_of_lost ht hl hc (List.of_mem_filter hin) (hsorted.lost fill hf)
  · intro hempty hnone
    have hno : ∀ P, ¬ Reaches P after.orders fill := not_reaches_of_empty hempty hnone
    cases fate with
    | taken => exact absurd (hsorted.taken fill hf) (hno _)
    | repeated => exact absurd (hsorted.repeated fill hf) (hno _)
    | lost => rfl

/-- Of three parked fills an update takes one by its id and one by its client id, and the third one
repeats a trade id. A fill of another order stays. -/
theorem parked_fills_taken_by_both_names :
    let fill := fun id name => { Trade.blank with
      id := some id, order := some name, symbol := "BTC/USDT" }
    let order := { Order.new "A" "BTC/USDT" .buy none none with clientId := some "c" }
    let operations : List OrderOperation := [.fill (fill "t1" "A"), .fill (fill "t2" "B"),
      .fill (fill "t3" "c"), .fill (fill "t1" "c")]
    let start := new 10 10 .moveToNewest
    let cache := start.run operations
    let after := ((upsertOrder order).runOn cache).2
    start.Along Merges operations ∧ (upsertOrder order).runOn cache = (.ok 2, after) ∧
      after.pending.map (·.id) = [some "t2"] ∧
      (recorded after.orders).map (·.id) = [some "t1", some "t3"] ∧
      ∃ fates, fates.map Prod.fst = cache.pending.filter (awaits order) ∧
        (Fate.takenOf fates).length = 2 ∧
        ∀ fill fate, (fill, fate) ∈ fates →
          fate = .taken ∧ Reaches (fill ∈ ·.trades) after.orders fill ∨
            fate = .repeated ∧ Reaches (·.hasTrade fill = true) after.orders fill := by
  intro fill order operations start cache after
  have hm : start.Along Merges operations := by decide +kernel
  have hcount : ((upsertOrder order).runOn cache).1 = .ok 2 := by decide +kernel
  have hrun : (upsertOrder order).runOn cache = (.ok 2, after) := by
    rw [← hcount]
  obtain ⟨-, hkept⟩ := parked_fills_kept_unless_unnamed 10 10 .moveToNewest operations
  obtain ⟨-, fates, hfates, hlength, -, hall⟩ := hkept hm order 2 after hrun
  refine ⟨hm, hrun, by decide +kernel, by decide +kernel, fates, hfates, hlength.symm, ?_⟩
  intro fill fate hf
  obtain ⟨htaken, hrepeated, hlost, -⟩ := hall fill fate hf
  cases fate with
  | taken => exact .inl ⟨rfl, htaken rfl⟩
  | repeated => exact .inr ⟨rfl, hrepeated rfl⟩
  | lost => exact absurd (hlost rfl).2.1 (by decide)

/-- A fill that names the empty id is parked. An order without an id takes it from the queue and
does not get it. -/
theorem unnamed_fill_lost :
    let fill := { Trade.blank with id := some "t1", order := some "", symbol := "BTC/USDT" }
    let order := { Order.new "" "BTC/USDT" .buy none none with clientId := some "c" }
    let cache := (new 10 10 .keep).run [.fill fill]
    let after := ((upsertOrder order).runOn cache).2
    fill ∈ cache.pending ∧ ((upsertOrder order).runOn cache).1 = .ok 0 ∧ fill ∉ after.pending ∧
      ∀ other ∈ after.records, fill ∉ other.trades ∧ other.hasTrade fill = false := by
  intro fill order cache after
  have hpending : after.pending = [] := by
    rw [← List.length_eq_zero_iff]
    decide +kernel
  have hempty : ∀ other ∈ after.records, other.trades.length = 0 := by decide +kernel
  refine ⟨List.mem_singleton_self _, by decide +kernel, by simp [hpending], ?_⟩
  intro other ho
  have htrades := List.length_eq_zero_iff.mp (hempty other ho)
  refine ⟨by simp [htrades], ?_⟩
  rw [Order.hasTrade, htrades]
  rfl

end MarketFeed.OrderCache
