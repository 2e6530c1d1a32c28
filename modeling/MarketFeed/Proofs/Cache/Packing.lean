import MarketFeed.Proofs.Cache.Run

/-!
# Records and empty slots

Where the records of a cache stand after an operation, in their order, and how many empty slots
there are between them. None is at the front, a cache that keeps records in place has none at all,
and the others have few of them in relation to their records.
-/

namespace MarketFeed

/-- A record comes back changed among those before and behind it. -/
def Placement.relocate {α : Type} (before : List α) (record : α) (behind : List α) :
    Placement → List α
  | keep => before ++ record :: behind
  | moveToNewest => before ++ behind ++ [record]

lemma Placement.relocate_perm {α : Type} (before : List α) (record : α) (behind : List α)
    (placement : Placement) :
    (placement.relocate before record behind).Perm (record :: (before ++ behind)) := by
  cases placement with
  | keep => exact List.perm_middle
  | moveToNewest => exact List.perm_append_singleton record (before ++ behind)

namespace KeyedCache

variable {α : Type} {cache : KeyedCache α} {position : Nat} {record older newer : α}
  {before behind : List (Option α)}

lemma slots_setSlot {slot : Option α} (h : cache.slots = before ++ slot :: behind)
    (content : Option α) : (cache.setSlot (cache.base + before.length) content).slots =
      before ++ content :: behind := by
  rw [setSlot, Nat.add_sub_cancel_left, h, List.set_append_right _ _ (Nat.le_refl _),
    Nat.sub_self, List.set_cons_zero]

lemma filterMap_map_some (records : List α) : (records.map some).filterMap id = records := by
  rw [List.filterMap_map]
  exact List.filterMap_some

lemma length_records (h : cache.slots = before ++ some record :: behind) :
    cache.records.length = (before.filterMap id).length + (behind.filterMap id).length + 1 := by
  rw [records_of_slots h, List.length_append, List.length_cons, Nat.add_assoc]

/-- How the records of a cache are packed into its slots. -/
structure Packed (cache : KeyedCache α) : Prop where
  live : cache.live = cache.records.length
  room : cache.live ≤ cache.limit
  front : cache.slots.head? ≠ some none
  sparse : cache.slots.length ≤ maxSlots cache.live
  kept : cache.placement = .keep → none ∉ cache.slots

lemma packed_new (limit : Nat) (placement : Placement) :
    (new limit placement : KeyedCache α).Packed := by
  refine ⟨rfl, Nat.zero_le _, ?_, Nat.zero_le _, ?_⟩
  · simp [new]
  · simp [new]

lemma Packed.setSlot (h : cache.Packed) (hs : cache.slots = before ++ some older :: behind)
    (newer : α) : (cache.setSlot (cache.base + before.length) (some newer)).Packed := by
  have hn := slots_setSlot hs (some newer)
  refine ⟨?_, h.room, ?_, ?_, ?_⟩
  · rw [length_records hn, ← length_records hs]
    exact h.live
  · rw [hn]
    have hf := h.front
    rw [hs] at hf
    cases before with
    | nil => simp
    | cons slot rest => exact hf
  · have hl := h.sparse
    rw [hs] at hl
    rw [hn]
    change _ ≤ maxSlots cache.live
    simpa using hl
  · intro hp hm
    have hk := h.kept hp
    rw [hs] at hk
    rw [hn] at hm
    simp only [List.mem_append, List.mem_cons, reduceCtorEq, false_or] at hk hm
    exact hk hm

lemma Packed.base_lt_nextPosition (h : cache.Packed) (hl : 0 < cache.live) :
    cache.base < cache.nextPosition := by
  have hrecords : 0 < cache.records.length := h.live ▸ hl
  have hslots : cache.records.length ≤ cache.slots.length := List.length_filterMap_le _ _
  rw [nextPosition]
  omega

variable [Identified α]

/-! The records in their order. -/

/-- Closing up gives the records new positions or leaves the cache alone. -/
lemma compact_cases (cache : KeyedCache α) :
    cache.compact = cache ∧ cache.slots.length ≤ maxSlots cache.live ∨
      ∃ byId byClientId,
        cache.compact = { cache with slots := cache.records.map some, byId, byClientId } := by
  rw [compact]
  by_cases h : cache.slots.length ≤ maxSlots cache.live
  · exact .inl ⟨if_pos h, h⟩
  · rw [if_neg h]
    obtain ⟨byId, byClientId, hf⟩ := foldl_push_frame
      { cache with slots := [], byId := .empty, byClientId := .empty } cache.records
    exact .inr ⟨byId, byClientId, by rw [hf, List.nil_append]⟩

lemma records_compact (cache : KeyedCache α) : cache.compact.records = cache.records := by
  obtain ⟨h, -⟩ | ⟨byId, byClientId, h⟩ := compact_cases cache
  · rw [h]
  · rw [h]
    exact filterMap_map_some cache.records

/-- The changed record moves unless it is the newest one already, which makes no difference. -/
lemma records_exchange (h : cache.slots = before ++ some older :: behind)
    (hp : position = cache.base + before.length) (newer : α) :
    (cache.exchange position older newer).records =
      cache.placement.relocate (before.filterMap id) newer (behind.filterMap id) := by
  subst hp
  have hr : (cache.replace (cache.base + before.length) older newer).records =
      before.filterMap id ++ newer :: behind.filterMap id := by
    exact records_of_slots (slots_setSlot h (some newer))
  rw [exchange]
  cases hm : cache.placement with
  | keep =>
    rw [if_neg (by simp), hr]
    rfl
  | moveToNewest =>
    by_cases hl : cache.base + before.length + 1 = cache.nextPosition
    · have hb : behind = [] := by
        rw [nextPosition, h, List.length_append, List.length_cons] at hl
        exact List.eq_nil_of_length_eq_zero (by omega)
      rw [if_neg (by simp [hl]), hr, hb]
      simp [Placement.relocate]
    · rw [if_pos ⟨rfl, hl⟩, records_compact, records_trimFront, records_push]
      have hv : (cache.vacate (cache.base + before.length) older).records =
          before.filterMap id ++ behind.filterMap id := by
        exact records_of_empty_slot (slots_setSlot h none)
      rw [hv]
      rfl

lemma slots_vacate_front {rest : List (Option α)} (h : cache.slots = some record :: rest) :
    (cache.vacate cache.base record).slots = none :: rest := by
  change cache.slots.set (cache.base - cache.base) none = none :: rest
  rw [h, Nat.sub_self, List.set_cons_zero]

lemma evictOldest_of_front {rest : List (Option α)} (h : cache.slots = some record :: rest) :
    cache.evictOldest =
      { cache.vacate cache.base record with live := cache.live - 1 }.trimFront := by
  have ht : cache.trimFront = cache := trimFront_of_head? (by simp [h])
  have hv := slots_vacate_front h
  rw [evictOldest, ht]
  simp only [h]
  simp only [trimFront, hv]
  simp [vacate, setSlot, leave, Nat.add_assoc, Nat.add_comm]

/-! The packing is kept. -/

lemma Packed.compact (hl : cache.live = cache.records.length) (hr : cache.live ≤ cache.limit)
    (hf : cache.slots.head? ≠ some none) (hk : cache.placement = .keep → none ∉ cache.slots) :
    cache.compact.Packed := by
  obtain ⟨h, hs⟩ | ⟨byId, byClientId, h⟩ := compact_cases cache
  · rw [h]
    exact ⟨hl, hr, hf, hs, hk⟩
  · rw [h]
    refine ⟨?_, hr, ?_, ?_, ?_⟩
    · change cache.live = ((cache.records.map some).filterMap id).length
      rw [filterMap_map_some, hl]
    · dsimp only
      cases cache.records <;> simp
    · dsimp only
      rw [List.length_map, ← hl, maxSlots]
      omega
    · simp

lemma Packed.exchange (h : cache.Packed) (hs : cache.slot? position = some older) (newer : α) :
    (cache.exchange position older newer).Packed := by
  obtain ⟨before, behind, hb, rfl⟩ := slots_of_slot? hs
  have hl := records_exchange hb rfl newer
  rw [KeyedCache.exchange] at hl ⊢
  by_cases hm : cache.placement = .moveToNewest ∧
      cache.base + before.length + 1 ≠ cache.nextPosition
  · rw [if_pos hm] at hl ⊢
    rw [records_compact] at hl
    refine Packed.compact ?_ h.room (head?_trimFront _) ?_
    · rw [hl, (Placement.relocate_perm ..).length_eq, List.length_cons, List.length_append,
        ← length_records hb]
      exact h.live
    · intro hp
      exact absurd (hm.1.symm.trans hp) (by simp)
  · rw [if_neg hm]
    have hn := h.setSlot hb newer
    exact ⟨hn.live, hn.room, hn.front, hn.sparse, hn.kept⟩

/-- The cache with one record more, before it makes room. -/
def grown (cache : KeyedCache α) (record : α) : KeyedCache α :=
  { cache.push record with live := cache.live + 1 }

lemma accept_of_room (h : cache.live < cache.limit) (record : α) :
    cache.accept record = cache.grown record :=
  if_neg (Nat.not_lt.mpr h)

lemma slots_grown (cache : KeyedCache α) (record : α) :
    (cache.grown record).slots = cache.slots ++ [some record] := rfl

lemma records_grown (cache : KeyedCache α) (record : α) :
    (cache.grown record).records = cache.records ++ [record] :=
  records_push cache record

lemma Packed.front_grown (h : cache.Packed) (record : α) :
    ∃ first rest, (cache.grown record).slots = some first :: rest := by
  have hf := h.front
  rw [slots_grown]
  cases hs : cache.slots with
  | nil => exact ⟨record, [], rfl⟩
  | cons slot rest =>
    rw [hs] at hf
    cases slot with
    | none => exact absurd rfl hf
    | some first => exact ⟨first, rest ++ [some record], rfl⟩

/-- Where there is no room, the first record leaves. -/
lemma Packed.accept_of_full (h : cache.Packed) (hl : cache.limit ≤ cache.live) (record : α) :
    ∃ first rest, (cache.grown record).slots = some first :: rest ∧
      cache.accept record =
        { (cache.grown record).vacate (cache.grown record).base first with
          live := cache.live }.trimFront := by
  obtain ⟨first, rest, hs⟩ := h.front_grown record
  have ha : cache.accept record = (cache.grown record).evictOldest :=
    if_pos (Nat.lt_succ_of_le hl)
  exact ⟨first, rest, hs, by rw [ha, evictOldest_of_front hs]; rfl⟩

lemma Packed.records_accept (h : cache.Packed) (record : α) : (cache.accept record).records =
    if cache.live < cache.limit then cache.records ++ [record]
    else (cache.records ++ [record]).tail := by
  by_cases hl : cache.live < cache.limit
  · rw [if_pos hl, accept_of_room hl, records_grown]
  · obtain ⟨first, rest, hs, ha⟩ := h.accept_of_full (Nat.not_lt.mp hl) record
    rw [if_neg hl, ha, records_trimFront, ← records_grown, records, records, hs]
    change ((cache.grown record).vacate (cache.grown record).base first).slots.filterMap id = _
    rw [slots_vacate_front hs]
    rfl

lemma Packed.accept (h : cache.Packed) (record : α) : (cache.accept record).Packed := by
  have hk : cache.placement = .keep → none ∉ (cache.grown record).slots := by
    intro hp
    rw [slots_grown]
    simpa using h.kept hp
  have hlen : (cache.grown record).slots.length = cache.slots.length + 1 := by
    rw [slots_grown, List.length_append, List.length_singleton]
  have hr := h.records_accept record
  have hlive := h.live
  have hsparse := h.sparse
  by_cases hl : cache.live < cache.limit
  · rw [if_pos hl] at hr
    obtain ⟨first, rest, hs⟩ := h.front_grown record
    rw [accept_of_room hl] at hr ⊢
    refine ⟨?_, hl, ?_, ?_, hk⟩
    · rw [hr, List.length_append, List.length_singleton, ← hlive]
      rfl
    · rw [hs]
      simp
    · rw [hlen]
      change _ ≤ maxSlots (cache.live + 1)
      rw [maxSlots] at hsparse ⊢
      omega
  · rw [if_neg hl] at hr
    obtain ⟨first, rest, hs, ha⟩ := h.accept_of_full (Nat.not_lt.mp hl) record
    have ht : (cache.accept record).slots = rest.dropWhile Option.isNone := by
      rw [ha, trimFront]
      change ((cache.grown record).vacate (cache.grown record).base first).slots.dropWhile
        Option.isNone = _
      rw [slots_vacate_front hs]
      rfl
    refine ⟨?_, ?_, ?_, ?_, ?_⟩
    · rw [hr, List.length_tail, List.length_append, List.length_singleton, Nat.add_sub_cancel,
        ← hlive, ha]
      rfl
    · rw [ha]
      exact h.room
    · rw [ha]
      exact head?_trimFront _
    · have hd : (rest.dropWhile Option.isNone).length ≤ rest.length :=
        (List.dropWhile_suffix _).length_le
      rw [hs, List.length_cons] at hlen
      rw [ht, ha]
      change _ ≤ maxSlots cache.live
      omega
    · intro hp
      rw [ha] at hp
      rw [ht]
      have hn := hk hp
      rw [hs, List.mem_cons, not_or] at hn
      exact fun hm => hn.2 ((List.dropWhile_suffix _).subset hm)

lemma packed_after (h : cache.Packed) (operation : KeyedOperation α) :
    (cache.after operation).Packed := by
  have ho := perform_outcome cache operation
  generalize cache.answer operation = answer, cache.after operation = after at ho
  cases ho with
  | changed hm hc => exact h.exchange hm.slot _
  | ended hm hc =>
    obtain ⟨before, behind, hs, hp⟩ := slots_of_slot? hm.slot
    rw [hp]
    exact h.setSlot hs _
  | added hn => exact h.accept _
  | missed hn => exact h

lemma packed_run (h : cache.Packed) (operations : List (KeyedOperation α)) :
    (cache.run operations).Packed := by
  induction operations generalizing cache with
  | nil => exact h
  | cons operation rest ih => exact ih (packed_after h operation)

/-! The settings of a cache stay. -/

/-- The room that a cache has and where it puts what changes. -/
def settings (cache : KeyedCache α) : Nat × Placement := (cache.limit, cache.placement)

lemma settings_compact (cache : KeyedCache α) : cache.compact.settings = cache.settings := by
  obtain ⟨h, -⟩ | ⟨byId, byClientId, h⟩ := compact_cases cache
  · rw [h]
  · rw [h]
    rfl

lemma Packed.settings_accept (h : cache.Packed) (record : α) :
    (cache.accept record).settings = cache.settings := by
  by_cases hl : cache.live < cache.limit
  · rw [accept_of_room hl]
    rfl
  · obtain ⟨first, rest, -, ha⟩ := h.accept_of_full (Nat.not_lt.mp hl) record
    rw [ha]
    rfl

lemma settings_after (h : cache.Packed) (operation : KeyedOperation α) :
    (cache.after operation).settings = cache.settings := by
  have ho := perform_outcome cache operation
  generalize cache.answer operation = answer, cache.after operation = after at ho
  cases ho with
  | changed hm hc =>
    rw [KeyedCache.exchange]
    split_ifs
    · exact settings_compact _
    · rfl
  | ended hm hc => rfl
  | added hn => exact h.settings_accept _
  | missed hn => rfl

lemma settings_run (h : cache.Packed) (operations : List (KeyedOperation α)) :
    (cache.run operations).settings = cache.settings := by
  induction operations generalizing cache with
  | nil => rfl
  | cons operation rest ih =>
    exact (ih (packed_after h operation)).trans (settings_after h operation)

/-! What holds of every record. -/

/-- A record that changes leaves the others as they are, wherever it goes. -/
lemma exists_others (hs : cache.slot? position = some older) : ∃ others,
    cache.records.Perm (older :: others) ∧ ∀ newer : α,
      (cache.exchange position older newer).records.Perm (newer :: others) ∧
      (cache.setSlot position (some newer)).records.Perm (newer :: others) := by
  obtain ⟨before, behind, hb, hp⟩ := slots_of_slot? hs
  refine ⟨before.filterMap id ++ behind.filterMap id, ?_, fun newer => ⟨?_, ?_⟩⟩
  · rw [records_of_slots hb]
    exact List.perm_middle
  · rw [records_exchange hb hp]
    exact Placement.relocate_perm ..
  · rw [hp, records_of_slots (slots_setSlot hb (some newer))]
    exact List.perm_middle

/-- What holds of every record holds after an operation, if it holds of what the operation makes of
a record, whether it completes or not, and of a record that it adds. -/
lemma Packed.forall_records_after {P : α → Prop} {operation : KeyedOperation α} (h : cache.Packed)
    (hr : ∀ record ∈ cache.records, P record)
    (hchange : ∀ position older, cache.Meets operation position older →
      P (operation.change.runOn older).2)
    (hadd : ∀ record, operation = .append record → P record) :
    ∀ record ∈ (cache.after operation).records, P record := by
  have ho := perform_outcome cache operation
  generalize cache.answer operation = answer, cache.after operation = after at ho
  cases ho with
  | changed hm hc =>
    obtain ⟨others, hbefore, hafter⟩ := exists_others hm.slot
    have hnewer := hchange _ _ hm
    rw [hc] at hnewer
    simp only [hbefore.mem_iff, List.forall_mem_cons] at hr
    simpa [(hafter _).1.mem_iff, hnewer] using hr.2
  | ended hm hc =>
    obtain ⟨others, hbefore, hafter⟩ := exists_others hm.slot
    have hnewer := hchange _ _ hm
    rw [hc] at hnewer
    simp only [hbefore.mem_iff, List.forall_mem_cons] at hr
    simpa [(hafter _).2.mem_iff, hnewer] using hr.2
  | added hn =>
    have hall : ∀ record ∈ cache.records ++ [_], P record :=
      List.forall_mem_append.mpr ⟨hr, List.forall_mem_singleton.mpr (hadd _ rfl)⟩
    rw [h.records_accept]
    split_ifs
    · exact hall
    · exact fun record hmem => hall record (List.mem_of_mem_tail hmem)
  | missed hn => exact hr

end KeyedCache

end MarketFeed
