import MarketFeed.Cache.Keyed
import MarketFeed.Proofs.Cache.KeyIndex
import Mathlib.Data.List.TakeWhile
import Mathlib.Tactic.Set

/-!
# Slots of a keyed cache

What stands at a position, and the records in their order, after each of the small changes to the
slots of a cache. Positions stay right when empty slots leave at the front, and are given anew only
when the slots are closed up.
-/

namespace MarketFeed.KeyedCache

open KeyIndex (Occupancy)

variable {α : Type} {cache : KeyedCache α} {position : Nat} {record : α}

/-! Positions count from the first slot on. -/

lemma slot?_eq_some : cache.slot? position = some record ↔
    ∃ offset, position = cache.base + offset ∧ cache.slots[offset]? = some (some record) := by
  rw [slot?]
  split_ifs with hb
  · constructor
    · intro h
      exact ⟨position - cache.base, by omega, by simpa [Option.join_eq_some_iff] using h⟩
    · rintro ⟨offset, rfl, h⟩
      rw [Nat.add_sub_cancel_left, h]
      rfl
  · constructor
    · intro h
      exact absurd h (by simp)
    · rintro ⟨offset, rfl, -⟩
      exact absurd (Nat.le_add_right _ _) hb

lemma slot?_base {rest : List (Option α)} (h : cache.slots = some record :: rest) :
    cache.slot? cache.base = some record :=
  slot?_eq_some.mpr ⟨0, rfl, by rw [h]; rfl⟩

/-- The slots around the record at a position. -/
lemma slots_of_slot? (h : cache.slot? position = some record) :
    ∃ before behind, cache.slots = before ++ some record :: behind ∧
      position = cache.base + before.length := by
  obtain ⟨offset, hp, ho⟩ := slot?_eq_some.mp h
  obtain ⟨hl, he⟩ := List.getElem?_eq_some_iff.mp ho
  refine ⟨cache.slots.take offset, cache.slots.drop (offset + 1), ?_, ?_⟩
  · rw [← he, List.getElem_cons_drop hl, List.take_append_drop]
  · rw [List.length_take, Nat.min_eq_left (by omega), hp]

lemma mem_records : record ∈ cache.records ↔ ∃ position, cache.slot? position = some record := by
  rw [records, List.mem_filterMap]
  constructor
  · rintro ⟨slot, hm, rfl⟩
    obtain ⟨offset, ho⟩ := List.mem_iff_getElem?.mp hm
    exact ⟨cache.base + offset, slot?_eq_some.mpr ⟨offset, rfl, ho⟩⟩
  · rintro ⟨position, h⟩
    obtain ⟨offset, -, ho⟩ := slot?_eq_some.mp h
    exact ⟨some record, List.mem_of_getElem? ho, rfl⟩

/-- What holds of the records at any two positions holds of the records in pairs. -/
lemma pairwise_records {R : α → α → Prop}
    (h : ∀ p q a b, p ≠ q → cache.slot? p = some a → cache.slot? q = some b → R a b) :
    cache.records.Pairwise R := by
  rw [records, List.pairwise_filterMap, List.pairwise_iff_getElem]
  intro i j hi hj hij a ha b hb
  refine h (cache.base + i) (cache.base + j) a b (by omega) (slot?_eq_some.mpr ⟨i, rfl, ?_⟩)
    (slot?_eq_some.mpr ⟨j, rfl, ?_⟩)
  · rw [List.getElem?_eq_getElem hi]
    exact congrArg some ha
  · rw [List.getElem?_eq_getElem hj]
    exact congrArg some hb

lemma slot?_of_ge (h : cache.nextPosition ≤ position) : cache.slot? position = none := by
  rw [nextPosition] at h
  rw [slot?, if_pos (by omega), List.getElem?_eq_none (by omega)]
  rfl

lemma slot?_setSlot (h : cache.slot? position = some record) (content : Option α) :
    (cache.setSlot position content).slot? = Function.update cache.slot? position content := by
  obtain ⟨offset, rfl, ho⟩ := slot?_eq_some.mp h
  obtain ⟨hl, -⟩ := List.getElem?_eq_some_iff.mp ho
  funext other
  rw [Function.update_apply, slot?, slot?, setSlot]
  dsimp only
  rw [Nat.add_sub_cancel_left, List.getElem?_set]
  by_cases hb : cache.base ≤ other
  · by_cases he : other = cache.base + offset
    · subst he
      simp [hl]
    · rw [if_pos hb, if_pos hb, if_neg he, if_neg (by omega)]
  · rw [if_neg hb, if_neg hb, if_neg (by omega)]

lemma slot?_trimFront (cache : KeyedCache α) : cache.trimFront.slot? = cache.slot? := by
  have hs : cache.slots = cache.slots.takeWhile Option.isNone ++ cache.trimFront.slots :=
    List.takeWhile_append_dropWhile.symm
  set dropped := cache.slots.takeWhile Option.isNone with hd
  have hn : ∀ slot ∈ dropped, slot = none := fun slot hm => by
    simpa using List.mem_takeWhile_imp hm
  funext position
  rw [slot?, slot?]
  change (if cache.base + dropped.length ≤ position then
    cache.trimFront.slots[position - (cache.base + dropped.length)]?.join else none) = _
  rw [hs]
  by_cases hb : cache.base ≤ position
  · rw [if_pos hb, List.getElem?_append]
    by_cases hl : position - cache.base < dropped.length
    · rw [if_pos hl, if_neg (by omega), List.getElem?_eq_getElem hl, hn _ (List.getElem_mem hl)]
      rfl
    · rw [if_neg hl, if_pos (by omega), Nat.sub_sub]
  · rw [if_neg hb, if_neg (by omega)]

lemma nextPosition_setSlot (cache : KeyedCache α) (position : Nat) (content : Option α) :
    (cache.setSlot position content).nextPosition = cache.nextPosition := by
  simp [nextPosition, setSlot]

lemma nextPosition_trimFront (cache : KeyedCache α) :
    cache.trimFront.nextPosition = cache.nextPosition := by
  have hl : (cache.slots.takeWhile Option.isNone).length +
      (cache.slots.dropWhile Option.isNone).length = cache.slots.length := by
    rw [← List.length_append, List.takeWhile_append_dropWhile]
  rw [nextPosition, nextPosition, trimFront]
  dsimp only
  omega

/-! The records in their order. -/

lemma records_of_slots {before behind : List (Option α)}
    (h : cache.slots = before ++ some record :: behind) :
    cache.records = before.filterMap id ++ record :: behind.filterMap id := by
  rw [records, h, List.filterMap_append]
  rfl

lemma records_of_empty_slot {before behind : List (Option α)}
    (h : cache.slots = before ++ none :: behind) :
    cache.records = before.filterMap id ++ behind.filterMap id := by
  rw [records, h, List.filterMap_append]
  rfl

lemma filterMap_dropWhile_isNone (slots : List (Option α)) :
    (slots.dropWhile Option.isNone).filterMap id = slots.filterMap id := by
  induction slots with
  | nil => rfl
  | cons slot rest ih =>
    cases slot with
    | none => exact ih
    | some record => rfl

lemma records_trimFront (cache : KeyedCache α) : cache.trimFront.records = cache.records :=
  filterMap_dropWhile_isNone cache.slots

lemma head?_trimFront (cache : KeyedCache α) : cache.trimFront.slots.head? ≠ some none := by
  intro h
  have hd := List.head?_dropWhile_not Option.isNone cache.slots
  change (cache.slots.dropWhile Option.isNone).head? = some none at h
  rw [h] at hd
  exact absurd hd (by simp)

lemma trimFront_of_head? (h : cache.slots.head? ≠ some none) : cache.trimFront = cache := by
  obtain ⟨slots, base, live, limit, placement, byId, byClientId⟩ := cache
  cases slots with
  | nil => rfl
  | cons slot rest =>
    cases slot with
    | none => exact absurd rfl h
    | some record => rfl

variable [Identified α]

/-- The keys of the records by their positions. -/
def held (cache : KeyedCache α) : Occupancy :=
  fun position => (cache.slot? position).map RecordKeys.of

lemma held_of_slot? (h : cache.slot? position = some record) :
    cache.held position = some (.of record) := by
  rw [held, h, Option.map_some]

lemma held_eq_some {keys : RecordKeys} : cache.held position = some keys ↔
    ∃ record, cache.slot? position = some record ∧ RecordKeys.of record = keys :=
  Option.map_eq_some_iff

lemma held_of_ge (h : cache.nextPosition ≤ position) : cache.held position = none := by
  rw [held, slot?_of_ge h, Option.map_none]

lemma held_setSlot (h : cache.slot? position = some record) (content : Option α) :
    (cache.setSlot position content).held =
      Function.update cache.held position (content.map RecordKeys.of) := by
  funext other
  rw [held, slot?_setSlot h, Function.update_apply, Function.update_apply, held]
  split_ifs <;> rfl

lemma held_trimFront (cache : KeyedCache α) : cache.trimFront.held = cache.held := by
  funext position
  rw [held, held, slot?_trimFront]

lemma slot?_push (cache : KeyedCache α) (record : α) : (cache.push record).slot? =
    Function.update cache.slot? cache.nextPosition (some record) := by
  funext position
  rw [Function.update_apply, slot?, slot?, nextPosition]
  change (if cache.base ≤ position then
    ((cache.slots ++ [some record])[position - cache.base]?).join else none) = _
  by_cases hb : cache.base ≤ position
  · rw [if_pos hb, if_pos hb, List.getElem?_append]
    by_cases hl : position - cache.base < cache.slots.length
    · rw [if_pos hl, if_neg (by omega)]
    · rw [if_neg hl, List.getElem?_eq_none (by omega : cache.slots.length ≤ position - cache.base)]
      by_cases he : position = cache.base + cache.slots.length
      · subst he
        simp
      · rw [if_neg he, List.getElem?_eq_none (by simp; omega)]
  · rw [if_neg hb, if_neg hb, if_neg (by omega)]

lemma held_push (cache : KeyedCache α) (record : α) : (cache.push record).held =
    Function.update cache.held cache.nextPosition (some (.of record)) := by
  funext position
  rw [held, slot?_push, Function.update_apply, Function.update_apply, held]
  split_ifs <;> rfl

lemma records_push (cache : KeyedCache α) (record : α) :
    (cache.push record).records = cache.records ++ [record] := by
  change (cache.slots ++ [some record]).filterMap id = _
  rw [List.filterMap_append]
  rfl

/-- Pushing records one after the other fills new slots at the end and changes no setting. -/
lemma foldl_push_frame (cache : KeyedCache α) (records : List α) : ∃ byId byClientId,
    records.foldl push cache =
      { cache with slots := cache.slots ++ records.map some, byId, byClientId } := by
  induction records generalizing cache with
  | nil => exact ⟨cache.byId, cache.byClientId, by simp⟩
  | cons record rest ih =>
    obtain ⟨byId, byClientId, h⟩ := ih (cache.push record)
    refine ⟨byId, byClientId, ?_⟩
    rw [List.foldl_cons, h]
    simp [push, enter]

end MarketFeed.KeyedCache
