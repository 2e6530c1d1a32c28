import MarketFeed.Proofs.Cache.Lookup

/-!
# Client ids of a keyed cache

Appending keeps the client ids of records apart until a record comes that names two others, one by
its id and one by its client id. It is merged into the first, which from then on has the client id
of the second as well.
-/

namespace MarketFeed.KeyedCache

variable {α : Type} [Identified α]

/-- A record that comes under a known id has the client id of no record under another id. -/
def Uncontested (cache : KeyedCache α) : KeyedOperation α → Prop
  | .append record => ∀ known ∈ cache.records, RecordKeys.Clash .id (.of known) (.of record) →
      ∀ other ∈ cache.records, RecordKeys.Clash .clientId (.of other) (.of record) →
        RecordKeys.Clash .id (.of other) (.of record)
  | .modify _ _ _ => True

instance (cache : KeyedCache α) : (operation : KeyedOperation α) →
    Decidable (cache.Uncontested operation)
  | .append record => inferInstanceAs (Decidable (∀ known ∈ cache.records,
      RecordKeys.Clash .id (.of known) (.of record) → ∀ other ∈ cache.records,
        RecordKeys.Clash .clientId (.of other) (.of record) →
          RecordKeys.Clash .id (.of other) (.of record)))
  | .modify _ _ _ => isTrue trivial

variable {cache : KeyedCache α} {kind : KeyKind} {position : Nat} {record older newer : α}

lemma find?_of_unmatched (h : ∀ kind, cache.Sound kind)
    (hn : (cache.match? record).bind cache.slot? = none) (kind : KeyKind) :
    cache.find? kind (.of record) = none := by
  have hl : cache.lookup (.of record) = none := by
    by_contra he
    obtain ⟨position, hl⟩ := Option.ne_none_iff_exists'.mp he
    obtain ⟨found, kind, hs, -⟩ := clash_of_lookup h hl
    rw [match?_eq_lookup, hl, Option.bind_some, hs] at hn
    exact absurd hn (by simp)
  obtain ⟨hi, hc⟩ := lookup_eq_none.mp hl
  cases kind with
  | id => exact hi
  | clientId => exact hc

/-- A record that none was found for is new. -/
lemma Complete.newTo_of_find? (h : cache.Complete kind)
    (hf : cache.find? kind (.of record) = none) : cache.NewTo kind record := by
  intro symbol key hc other hm ho
  obtain ⟨position, hs⟩ := mem_records.mp hm
  have hfound := h.find?_eq_some hs (ho.clash hc)
  rw [hf] at hfound
  exact absurd hfound (by simp)

/-- Without a contest, what a record is merged into is all that has its client id. -/
lemma newTo_clientId_of_match (hs : ∀ kind, cache.Sound kind) (hi : cache.Complete .id)
    (hc : cache.Complete .clientId) (hu : cache.Uncontested (.append record))
    (hm : cache.match? record = some position) (hslot : cache.slot? position = some older)
    (hk : RecordKeys.of newer = ⟨(RecordKeys.of record).symbol, (RecordKeys.of record).id,
      (RecordKeys.of record).clientId <|> (RecordKeys.of older).clientId⟩) :
    (cache.vacate position older).NewTo .clientId newer := by
  rw [match?_eq_lookup] at hm
  obtain ⟨found, kind, hf, hsymbol, -⟩ := clash_of_lookup hs hm
  obtain rfl : found = older := Option.some.inj (hf.symm.trans hslot)
  intro symbol key hnew other ho hother
  obtain ⟨there, hne, ht⟩ := exists_slot_of_mem_vacate hslot ho
  rw [hk] at hnew
  obtain ⟨hsym, hkey⟩ := hnew
  refine hne ?_
  cases hr : (RecordKeys.of record).clientId with
  | none =>
    have hold : (RecordKeys.of found).clientId = some key := by
      simpa [RecordKeys.key, hr] using hkey
    exact (hc symbol key).eq_of_carries ht hslot hother ⟨hsymbol.trans hsym, hold⟩
  | some clientId =>
    obtain rfl : clientId = key := by simpa [RecordKeys.key, hr] using hkey
    have hclash : RecordKeys.Clash .clientId (.of other) (.of record) := hother.clash ⟨hsym, hr⟩
    rcases lookup_eq_some.mp hm with hid | ⟨-, hclient⟩
    · obtain ⟨known, hkn, hkc⟩ := (hs .id).clash hid
      have hown := hu known (mem_records.mpr ⟨position, hkn⟩) hkc other
        (mem_records.mpr ⟨there, ht⟩) hclash
      exact hi.eq_of_clash ht hkn hown hkc
    · exact Option.some.inj ((hc.find?_eq_some ht hclash).symm.trans hclient)

/-- Every index leads to all records with its sort of key and to nothing else. -/
structure Coherent (cache : KeyedCache α) : Prop where
  packed : cache.Packed
  sound : ∀ kind, cache.Sound kind
  complete : ∀ kind, cache.Complete kind

lemma coherent_new (limit : Nat) (placement : Placement) :
    (new limit placement : KeyedCache α).Coherent :=
  ⟨packed_new limit placement, fun _ => sound_of_empty rfl rfl, fun _ => complete_of_empty rfl⟩

lemma Coherent.get?_clientId (h : cache.Coherent) (hm : record ∈ cache.records) {clientId : String}
    (hk : (RecordKeys.of record).clientId = some clientId)
    (ho : ∀ other ∈ cache.records, (RecordKeys.of other).symbol = (RecordKeys.of record).symbol →
      (RecordKeys.of other).id = some clientId → other = record) :
    cache.get? (RecordKeys.of record).symbol clientId = some record := by
  obtain ⟨position, hs⟩ := mem_records.mp hm
  have hc : cache.byClientId.get? ((RecordKeys.of record).symbol, clientId) = some position :=
    (h.complete .clientId _ _).get? hs ⟨rfl, hk⟩
  rw [get?, position?, hc]
  cases hi : cache.byId.get? ((RecordKeys.of record).symbol, clientId) with
  | none => exact hs
  | some found =>
    obtain ⟨other, hf, hsymbol, hid⟩ := (h.sound .id).lookup hi
    have he : other = record := ho other (mem_records.mpr ⟨found, hf⟩) hsymbol hid
    rw [← he]
    exact hf

variable [LawfulIdentified α]

lemma Coherent.after_append (h : cache.Coherent) (hc : cache.Completes (.append record))
    (hu : cache.Uncontested (.append record)) : (cache.after (.append record)).Coherent := by
  refine ⟨packed_after h.packed _, fun kind => sound_after h.packed (h.sound kind) hc, ?_⟩
  intro kind
  cases kind with
  | id => exact complete_after h.packed (h.complete .id) hc trivial
  | clientId =>
    obtain ⟨answer, ha⟩ := hc
    have ho := perform_outcome cache (.append record)
    rw [ha] at ho
    generalize cache.after (.append record) = after at ho
    cases ho with
    | changed hm hc =>
      exact (h.complete .clientId).exchange hm.slot <| newTo_clientId_of_match h.sound
        (h.complete .id) (h.complete .clientId) hu hm.target hm.slot (keys_of_merged hc)
    | added hn =>
      exact (h.complete .clientId).accept h.packed
        ((h.complete .clientId).newTo_of_find? (find?_of_unmatched h.sound hn _))

lemma Coherent.run_appends (h : cache.Coherent) {records : List α}
    (hc : cache.Along Completes (records.map .append))
    (hu : cache.Along Uncontested (records.map .append)) :
    (cache.run (records.map .append)).Coherent := by
  induction records generalizing cache with
  | nil => exact h
  | cons record rest ih => exact ih (h.after_append hc.1 hu.1) hc.2 hu.2

/-- A contested record leaves two records with its client id behind. -/
lemma Coherent.shared_of_contested (h : cache.Coherent) (hc : cache.Completes (.append record))
    (hu : ¬ cache.Uncontested (.append record)) :
    ¬ (cache.after (.append record)).records.Pairwise
      fun a b => ¬ RecordKeys.Clash .clientId (.of a) (.of b) := by
  simp only [Uncontested, not_forall] at hu
  obtain ⟨known, hk, hkc, other, ho, hoc, hne⟩ := hu
  obtain ⟨position, hs⟩ := mem_records.mp hk
  have hm : cache.match? record = some position :=
    lookup_eq_some.mpr (.inl ((h.complete .id).find?_eq_some hs hkc))
  have hmeets : cache.Meets (.append record) position known := ⟨hm, hs⟩
  obtain ⟨newer, hn, ha⟩ := after_of_meets hmeets hc
  obtain ⟨before, behind, hb, hp⟩ := slots_of_slot? hs
  have hmem : other ∈ before.filterMap id ++ behind.filterMap id := by
    rw [records_of_slots hb, List.perm_middle.mem_iff, List.mem_cons] at ho
    rcases ho with rfl | ho
    · exact absurd hkc hne
    · exact ho
  have hclash : RecordKeys.Clash .clientId (.of newer) (.of other) := by
    obtain ⟨hsymbol, key, hother, hrecord⟩ := hoc
    refine ⟨?_, key, ?_, hother⟩
    · rw [keys_of_merged hn]
      exact hsymbol.symm
    · have hr : (RecordKeys.of record).clientId = some key := hrecord
      rw [keys_of_merged hn, hr]
      rfl
  rw [ha, records_exchange hb hp]
  intro hd
  have hd' := (Placement.relocate_perm ..).pairwise hd fun hab hba => hab hba.symm
  exact (List.pairwise_cons.mp hd').1 other hmem hclash

/-- As long as no record that is appended is contested, no two records of a symbol have the same
client id, and each is found under its client id unless that is the id of another one; a contested
one ends this. -/
theorem client_ids_apart_until_contested (limit : Nat) (placement : Placement) (records : List α) :
    let start : KeyedCache α := new limit placement
    let operations := records.map KeyedOperation.append
    let cache := start.run operations
    start.Along Completes operations → start.Along Uncontested operations →
      cache.records.Pairwise (fun a b => ¬ RecordKeys.Clash .clientId (.of a) (.of b)) ∧
      (∀ record ∈ cache.records, ∀ clientId, (RecordKeys.of record).clientId = some clientId →
        (∀ other ∈ cache.records, (RecordKeys.of other).symbol = (RecordKeys.of record).symbol →
          (RecordKeys.of other).id = some clientId → other = record) →
        cache.get? (RecordKeys.of record).symbol clientId = some record) ∧
      ∀ newer, cache.Completes (.append newer) → (cache.Uncontested (.append newer) ↔
        (cache.after (.append newer)).records.Pairwise
          fun a b => ¬ RecordKeys.Clash .clientId (.of a) (.of b)) := by
  intro start operations cache hc hu
  have hcoherent : cache.Coherent := (coherent_new limit placement).run_appends hc hu
  refine ⟨(hcoherent.complete .clientId).pairwise, fun record hm clientId hk ho =>
    hcoherent.get?_clientId hm hk ho, fun newer hn => ⟨fun h => ?_, fun h => ?_⟩⟩
  · exact ((hcoherent.after_append hn h).complete .clientId).pairwise
  · by_contra hnot
    exact hcoherent.shared_of_contested hn hnot h

/-- An order that a client names is acknowledged under its client id, merged again, and found under
both of its names after the oldest one has left. -/
theorem acknowledged_orders_apart :
    let order := fun id clientId => { Order.new id "BTC/USDT" .buy none none with clientId }
    let records := [order "1" none, order "" (some "c-9"), order "77" (some "c-9"),
      order "78" (some "c-10"), order "77" none]
    let start : KeyedCache Order := new 2 .moveToNewest
    let operations := records.map KeyedOperation.append
    let cache := start.run operations
    start.Along Completes operations ∧ start.Along Uncontested operations ∧
      cache.records.map (·.id) = ["78", "77"] ∧
      cache.records.Pairwise (fun a b => ¬ RecordKeys.Clash .clientId (.of a) (.of b)) ∧
      ¬ cache.Uncontested (.append (order "77" (some "c-10"))) := by
  intro order records start operations cache
  have hc : start.Along Completes operations := by decide +kernel
  have hu : start.Along Uncontested operations := by decide +kernel
  obtain ⟨hd, -, -⟩ := client_ids_apart_until_contested 2 .moveToNewest records hc hu
  exact ⟨hc, hu, by decide +kernel, hd, by decide +kernel⟩

/-- An order that a client names and an order under the id that it is given are two records. The
acknowledgement with both names leaves both with the client id, which finds only one of them. -/
theorem contested_acknowledgement_shares_client_id :
    let order := fun id clientId => { Order.new id "BTC/USDT" .buy none none with clientId }
    let operations := [order "" (some "c-9"), order "77" none, order "77" (some "c-9")].map
      KeyedOperation.append
    let start : KeyedCache Order := new 10 .keep
    let cache := start.run operations
    start.Along Completes operations ∧
      cache.records.map (fun order => (order.symbol, order.id, order.clientId)) =
        [("BTC/USDT", "", some "c-9"), ("BTC/USDT", "77", some "c-9")] ∧
      ¬ cache.records.Pairwise (fun a b => ¬ RecordKeys.Clash .clientId (.of a) (.of b)) ∧
      (cache.get? "BTC/USDT" "c-9").map (·.id) = some "77" := by
  decide +kernel

end MarketFeed.KeyedCache
