import MarketFeed.Proofs.Cache.Lookup
import MarketFeed.Proofs.Order.Filling

/-!
# Names of updated records

A record that an update is merged into takes the id of the update, and keeps its client id where the
update has none. It is found under the names that it has then. So an update that carries an id
leaves a record all names that it does not replace. An update without an id, which is found by its
client id, takes the id away: no record has it afterwards.
-/

namespace MarketFeed

lemma RecordKeys.Clash.of_common {kind : KeyKind} {a b keys : RecordKeys} (ha : Clash kind a keys)
    (hb : Clash kind b keys) : Clash kind a b := by
  obtain ⟨hsa, key, hka, hk⟩ := ha
  obtain ⟨hsb, other, hkb, ho⟩ := hb
  obtain rfl : key = other := Option.some.inj (hk.symm.trans ho)
  exact ⟨hsa.trans hsb.symm, key, hka, hkb⟩

namespace KeyedCache

variable {α : Type} [Identified α] {cache : KeyedCache α} {position : Nat} {older newer : α}
  {keys : RecordKeys} {symbol name : String}

/-- A changed record is found under its names, except for one that is the id of another record. -/
lemma Traceable.get?_exchange (h : cache.Traceable) (hs : cache.slot? position = some older)
    (hn : (RecordKeys.of newer).Names symbol name)
    (ho : ∀ other ∈ cache.records, RecordKeys.Clash .id (.of other) (.named symbol name) →
      RecordKeys.Clash .id (.of older) (.named symbol name)) :
    (cache.exchange position older newer).get? symbol name = some newer := by
  obtain ⟨kind, hc⟩ := hn
  obtain ⟨found, hfound, hlookup⟩ := exists_exchange_of_vacated h.complete hs newer
  have hvacated : (cache.vacate position older).find? .id (.named symbol name) = none := by
    by_contra he
    obtain ⟨there, ht⟩ := Option.ne_none_iff_exists'.mp he
    obtain ⟨other, hslot, hclash⟩ := ((h.sound .id).vacate hs).clash ht
    change (cache.setSlot position none).slot? there = some other at hslot
    rw [slot?_setSlot hs] at hslot
    have hne : there ≠ position := by
      rintro rfl
      rw [Function.update_self] at hslot
      exact absurd hslot (by simp)
    rw [Function.update_of_ne hne] at hslot
    exact hne (h.complete.eq_of_clash hslot hs hclash
      (ho other (mem_records.mpr ⟨there, hslot⟩) hclash))
  rw [get?, position?_eq_lookup, hlookup _ kind hc hvacated]
  exact hfound

/-- No record has an id that the record with it gave up. -/
lemma Traceable.not_clash_of_given_up (h : cache.Traceable)
    (hs : cache.slot? position = some older) (hold : RecordKeys.Clash .id (.of older) keys)
    (hnew : ¬ RecordKeys.Clash .id (.of newer) keys) :
    ∀ record ∈ (cache.exchange position older newer).records,
      ¬ RecordKeys.Clash .id (.of record) keys := by
  obtain ⟨others, hbefore, hafter⟩ := exists_others hs
  intro record hm hclash
  rcases List.mem_cons.mp ((hafter newer).1.mem_iff.mp hm) with rfl | hm
  · exact hnew hclash
  · have hpairwise := hbefore.pairwise h.complete.pairwise fun hab hba => hab hba.symm
    exact (List.pairwise_cons.mp hpairwise).1 record hm (hold.of_common hclash)

end KeyedCache

namespace Order

/-- The older order has the name, and the update has no other one in its place. -/
def LeavesName (update older : Order) (name : String) : Prop :=
  older.id = name ∧ name ≠ "" ∧ (update.id = "" ∨ update.id = name) ∨
    older.clientId = some name ∧ (update.clientId = none ∨ update.clientId = some name)

variable {update older merged : Order} {name : String}

lemma fields_of_mergeUpdate (h : (mergeUpdate update).runOn older = (.ok (), merged)) :
    merged.symbol = update.symbol ∧ merged.id = update.id ∧
      merged.clientId = (update.clientId <|> older.clientId) := by
  cases mergeUpdate_ok h <;> exact ⟨rfl, rfl, rfl⟩

lemma names_of_id (h : merged.id = name) (hn : name ≠ "") :
    (RecordKeys.of merged).Names merged.symbol name := by
  refine ⟨.id, ?_⟩
  rw [keys_of_id (h ▸ hn), h]
  exact ⟨rfl, name, rfl, rfl⟩

lemma names_of_clientId (h : merged.clientId = some name) :
    (RecordKeys.of merged).Names merged.symbol name :=
  ⟨.clientId, rfl, name, h, rfl⟩

/-- What an update leaves of the names, the merged order has: its id only if the update has one. -/
lemma names_of_leavesName (hid : merged.id = update.id)
    (hclient : merged.clientId = (update.clientId <|> older.clientId))
    (hc : update.id ≠ "" ∨ older.id = "") (h : update.LeavesName older name) :
    (RecordKeys.of merged).Names merged.symbol name := by
  rcases h with ⟨hold, hn, hu⟩ | ⟨hold, hu⟩
  · rcases hu with hu | hu
    · rcases hc with hc | hc
      · exact absurd hu hc
      · exact absurd (hold.symm.trans hc) hn
    · exact names_of_id (hid.trans hu) hn
  · refine names_of_clientId ?_
    rw [hclient, hold]
    rcases hu with hu | hu <;> rw [hu] <;> rfl

end Order

namespace KeyedCache

variable {cache : KeyedCache Order} {update older merged : Order} {position : Nat}

lemma symbol_of_match? (h : ∀ kind, cache.Sound kind) (hm : cache.match? update = some position)
    (hs : cache.slot? position = some older) : older.symbol = update.symbol := by
  obtain ⟨found, kind, hf, hsymbol, -⟩ := clash_of_lookup h hm
  obtain rfl : found = older := Option.some.inj (hf.symm.trans hs)
  exact hsymbol

lemma Traceable.run_appends {α : Type} [Identified α] [LawfulIdentified α] {cache : KeyedCache α}
    (h : cache.Traceable) {records : List α}
    (hc : cache.Along Completes (records.map .append)) :
    (cache.run (records.map .append)).Traceable := by
  induction records generalizing cache with
  | nil => exact h
  | cons record rest ih => exact ih (h.after_append hc.1) hc.2

/-- An order that an update is merged into takes the id of the update, and keeps its client id where
the update has none. It is found by each name that it then has, unless that is the id of another
order; an update that has an id, or is for an order without one, leaves the order all the names
that it does not replace. An update without an id takes the id of the order away, so that only an
order with this name for a client id is found by it. -/
theorem names_kept_unless_update_unnamed (limit : Nat) (placement : Placement)
    (orders : List Order) (update older : Order) :
    let start : KeyedCache Order := new limit placement
    let cache := start.run (orders.map .append)
    let after := cache.after (.append update)
    start.Along Completes (orders.map .append) → cache.Completes (.append update) →
    (cache.match? update).bind cache.slot? = some older →
    ∃ merged ∈ after.records, (Order.mergeUpdate update).runOn older = (.ok (), merged) ∧
      (merged.symbol = older.symbol ∧ merged.id = update.id ∧
        merged.clientId = (update.clientId <|> older.clientId)) ∧
      (∀ name, (RecordKeys.of merged).Names older.symbol name →
        (∀ other ∈ cache.records, RecordKeys.Clash .id (.of other) (.named older.symbol name) →
          RecordKeys.Clash .id (.of older) (.named older.symbol name)) →
        after.get? older.symbol name = some merged) ∧
      (update.id ≠ "" ∨ older.id = "" → ∀ name, update.LeavesName older name →
        (RecordKeys.of merged).Names older.symbol name) ∧
      (update.id = "" → older.id ≠ "" →
        (∀ other ∈ after.records,
          ¬ RecordKeys.Clash .id (.of other) (.named older.symbol older.id)) ∧
        ∀ other, after.get? older.symbol older.id = some other →
          other.clientId = some older.id) := by
  intro start cache after hrun hc hfound
  have htrace : cache.Traceable := (traceable_new limit placement).run_appends hrun
  have hafter : after.Traceable := htrace.after_append hc
  obtain ⟨position, hm, hs⟩ := Option.bind_eq_some_iff.mp hfound
  have hmeets : cache.Meets (.append update) position older := ⟨hm, hs⟩
  obtain ⟨merged, hmerge, he⟩ := after_of_meets hmeets hc
  obtain ⟨hsymbol, hid, hclient⟩ := Order.fields_of_mergeUpdate hmerge
  rw [← symbol_of_match? htrace.sound hm hs] at hsymbol
  have hmem : merged ∈ after.records := by
    obtain ⟨others, -, hexchanged⟩ := exists_others hs
    change merged ∈ (cache.after (.append update)).records
    rw [he, (hexchanged merged).1.mem_iff]
    exact List.mem_cons_self ..
  refine ⟨merged, hmem, hmerge, ⟨hsymbol, hid, hclient⟩, fun name hn ho => ?_,
    fun hkept name hl => hsymbol ▸ Order.names_of_leavesName hid hclient hkept hl,
    fun hu hold => ?_⟩
  · change (cache.after (.append update)).get? _ _ = _
    rw [he]
    exact htrace.get?_exchange hs hn ho
  · have hgone : ∀ other ∈ after.records,
        ¬ RecordKeys.Clash .id (.of other) (.named older.symbol older.id) := by
      change ∀ other ∈ (cache.after (.append update)).records, _
      rw [he]
      refine htrace.not_clash_of_given_up hs ?_ ?_
      · rw [Order.keys_of_id hold]
        exact ⟨rfl, older.id, rfl, rfl⟩
      · rintro ⟨-, key, hk, -⟩
        obtain ⟨rfl, hne⟩ := Order.id_of_keys hk
        exact hne (hid.trans hu)
    refine ⟨hgone, fun other hg => ?_⟩
    obtain ⟨kind, hsym, hk⟩ := carries_of_get? hafter.sound hg
    cases kind with
    | id =>
      obtain ⟨there, hp, hslot⟩ := Option.bind_eq_some_iff.mp hg
      exact absurd ⟨hsym, older.id, hk, rfl⟩ (hgone other (mem_records.mpr ⟨there, hslot⟩))
    | clientId => exact hk

/-- An order that a client names is acknowledged with an id, and an update under its id alone comes.
It is found by both names. -/
theorem acknowledged_order_keeps_names :
    let order := fun id clientId => { Order.new id "BTC/USDT" .buy none none with clientId }
    let start : KeyedCache Order := new 10 .moveToNewest
    let operations := [order "" (some "c-9"), order "12" none, order "77" (some "c-9")].map
      KeyedOperation.append
    let cache := start.run operations
    let update := order "77" none
    start.Along Completes operations ∧ cache.Completes (.append update) ∧
      ∃ merged, ((cache.after (.append update)).get? "BTC/USDT" "77") = some merged ∧
        (cache.after (.append update)).get? "BTC/USDT" "c-9" = some merged ∧
        merged.clientId = some "c-9" := by
  intro order start operations cache update
  have hrun : start.Along Completes operations := by decide +kernel
  have hc : cache.Completes (.append update) := by decide +kernel
  have hshown : ((cache.match? update).bind cache.slot?).map
      (fun older => (older.symbol, older.id, older.clientId)) =
        some ("BTC/USDT", "77", some "c-9") := by decide +kernel
  obtain ⟨older, hf, hkeys⟩ := Option.map_eq_some_iff.mp hshown
  obtain ⟨hsymbol, hkeys⟩ := Prod.mk.inj hkeys
  obtain ⟨hid, hclient⟩ := Prod.mk.inj hkeys
  obtain ⟨merged, -, -, ⟨-, -, hmerged⟩, hget, hnames, -⟩ :=
    names_kept_unless_update_unnamed 10 .moveToNewest _ update older hrun hc hf
  have hkept := hnames (.inl (by decide))
  rw [hsymbol] at hget hkept
  have hown : RecordKeys.Clash .id (.of older) (.named "BTC/USDT" "77") := by
    rw [Order.keys_of_id (by rw [hid]; decide), hsymbol, hid]
    exact ⟨rfl, "77", rfl, rfl⟩
  refine ⟨hrun, hc, merged, hget _ (hkept _ ?_) fun _ _ _ => hown, hget _ (hkept _ ?_) ?_, ?_⟩
  · exact .inl ⟨hid, by decide, .inr rfl⟩
  · exact .inr ⟨hclient, .inl rfl⟩
  · have hnone : ∀ other ∈ cache.records,
        ¬ RecordKeys.Clash .id (.of other) (.named "BTC/USDT" "c-9") := by decide +kernel
    exact fun other ho hclash => absurd hclash (hnone other ho)
  · rw [hmerged, hclient]
    rfl

/-- An update that names an order by its client id alone takes its id away, and nothing is found by
the id afterwards. -/
theorem unnamed_update_takes_id :
    let order := fun id clientId => { Order.new id "BTC/USDT" .buy none none with clientId }
    let start : KeyedCache Order := new 10 .keep
    let cache := start.run [.append (order "77" (some "c-9"))]
    let after := cache.after (.append (order "" (some "c-9")))
    cache.Completes (.append (order "" (some "c-9"))) ∧
      (cache.get? "BTC/USDT" "77").map (·.id) = some "77" ∧
      after.records.map (fun order => (order.id, order.clientId)) = [("", some "c-9")] ∧
      after.get? "BTC/USDT" "77" = none := by
  decide +kernel

end KeyedCache

end MarketFeed
