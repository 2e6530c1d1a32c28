import MarketFeed.Cache.Keyed
import MarketFeed.Proofs.Decimal.Attempt
import Mathlib.Tactic.SplitIfs

/-!
# Keys of merged records

A record that a newer one is merged into goes by the keys of the newer one, and keeps its client id
where the newer one has none.
-/

namespace MarketFeed

/-- Merging gives a record the keys of the newer one, also when an overflow ends it. -/
class LawfulIdentified (α : Type) [Identified α] : Prop where
  keys_merge : ∀ newer older : α, RecordKeys.of ((Identified.merge newer).runOn older).2 =
    ⟨(RecordKeys.of newer).symbol, (RecordKeys.of newer).id,
      (RecordKeys.of newer).clientId <|> (RecordKeys.of older).clientId⟩

lemma KeyedCache.keys_of_merged {α : Type} [Identified α] [LawfulIdentified α]
    {record older newer : α} (h : (Identified.merge record).runOn older = (.ok (), newer)) :
    RecordKeys.of newer = ⟨(RecordKeys.of record).symbol, (RecordKeys.of record).id,
      (RecordKeys.of record).clientId <|> (RecordKeys.of older).clientId⟩ := by
  have hk := LawfulIdentified.keys_merge record older
  rw [h] at hk
  exact hk

instance : LawfulIdentified Trade := ⟨fun _ _ => rfl⟩

lemma keys_mergeUpdate (newer older : Order) :
    RecordKeys.of ((Order.mergeUpdate newer).runOn older).2 =
      RecordKeys.of (newer.withIdentityOf older) := by
  rw [Order.mergeUpdate, Attempt.runOn_bind_ok (Attempt.runOn_get _),
    Attempt.runOn_bind_ok (Attempt.runOn_set _ _)]
  have hk {fee : Option Fee} : Attempt.Keeps RecordKeys.of
      (modify fun order : Order => { order with fee := order.fee <|> fee }) :=
    Attempt.keeps_modify fun _ => rfl
  refine (?_ : Attempt.Keeps RecordKeys.of _) _
  dsimp only
  split
  · refine Attempt.Keeps.bind (Attempt.keeps_modify ?_) fun _ => ?_
    · exact fun _ => rfl
    · split
      · refine Attempt.Keeps.bind Attempt.keeps_get fun _ => ?_
        refine Attempt.Keeps.bind (Attempt.keeps_of _) fun _ => ?_
        exact Attempt.Keeps.bind (Attempt.keeps_modify fun _ => rfl) fun _ => hk
      · exact hk
  · exact hk

instance : LawfulIdentified Order := ⟨keys_mergeUpdate⟩

namespace Order

variable {order : Order} {id : String}

lemma id_of_keys (h : (RecordKeys.of order).id = some id) : order.id = id ∧ id ≠ "" := by
  have hid : (if order.id.isEmpty then none else some order.id) = some id := h
  split_ifs at hid with hempty
  obtain rfl := Option.some.inj hid
  exact ⟨rfl, by simpa using hempty⟩

lemma keys_of_id (h : order.id ≠ "") :
    RecordKeys.of order = ⟨order.symbol, some order.id, order.clientId⟩ := by
  have hid : Identified.id? order = some order.id := if_neg (by simpa using h)
  rw [RecordKeys.of, hid]
  rfl

end Order

end MarketFeed
