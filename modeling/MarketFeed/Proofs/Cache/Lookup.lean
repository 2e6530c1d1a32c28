import MarketFeed.Proofs.Cache.Coherence

/-!
# Lookup by keys

A record is looked for under an id and a client id. Where it is found stays so while other records
come and go, and a record that took the place of an older one is found there by those of its keys
that led to the older one.
-/

namespace MarketFeed

/-- The keys to look for where a name can be an id or a client id. -/
def RecordKeys.named (symbol name : String) : RecordKeys := ⟨symbol, some name, some name⟩

/-- A record with these keys goes by the name. -/
def RecordKeys.Names (keys : RecordKeys) (symbol name : String) : Prop :=
  ∃ kind, Clash kind keys (.named symbol name)

namespace KeyedCache

variable {α : Type}

/-- The position entered under one of the keys. -/
def find? (cache : KeyedCache α) (kind : KeyKind) (keys : RecordKeys) : Option Nat :=
  (cache.index kind).find? keys.symbol (keys.key kind)

/-- The position that the keys lead to: that of the id, or else that of the client id. -/
def lookup (cache : KeyedCache α) (keys : RecordKeys) : Option Nat :=
  cache.find? .id keys <|> cache.find? .clientId keys

variable {cache : KeyedCache α} {kind : KeyKind} {keys entered : RecordKeys} {position : Nat}
  {record older newer : α}

lemma position?_eq_lookup (cache : KeyedCache α) (symbol name : String) :
    cache.position? symbol name = cache.lookup (.named symbol name) := rfl

lemma lookup_eq_some : cache.lookup keys = some position ↔ cache.find? .id keys = some position ∨
    cache.find? .id keys = none ∧ cache.find? .clientId keys = some position := by
  rw [lookup]
  cases cache.find? .id keys <;> simp

lemma lookup_eq_none : cache.lookup keys = none ↔
    cache.find? .id keys = none ∧ cache.find? .clientId keys = none := by
  rw [lookup]
  cases cache.find? .id keys <;> simp

lemma contains_eq_false {symbol name : String} :
    cache.contains symbol name = false ↔ cache.lookup (.named symbol name) = none := by
  rw [contains, position?_eq_lookup, Option.isSome_eq_false_iff, Option.isNone_iff_eq_none]

lemma contains_iff {symbol name : String} : cache.contains symbol name = true ↔
    ∃ kind, cache.find? kind (.named symbol name) ≠ none := by
  rw [← Bool.not_eq_false, contains_eq_false, lookup_eq_none, not_and_or]
  constructor
  · rintro (h | h)
    · exact ⟨.id, h⟩
    · exact ⟨.clientId, h⟩
  · rintro ⟨kind, h⟩
    cases kind with
    | id => exact .inl h
    | clientId => exact .inr h

lemma get?_of_contains {symbol name : String} (h : cache.contains symbol name = false) :
    cache.get? symbol name = none := by
  rw [get?, position?_eq_lookup, contains_eq_false.mp h]
  rfl

lemma find?_enter (cache : KeyedCache α) (entered : RecordKeys) (position : Nat) (kind : KeyKind)
    (keys : RecordKeys) : (cache.enter entered position).find? kind keys =
      if RecordKeys.Clash kind entered keys then some position else cache.find? kind keys := by
  rw [find?, find?, index_enter]
  cases hk : keys.key kind with
  | none => simp [KeyIndex.find?, RecordKeys.Clash, hk]
  | some key => simp [KeyIndex.find?, KeyIndex.get?_enter, RecordKeys.Clash, hk]

lemma find?_leave (cache : KeyedCache α) (left : RecordKeys) (position : Nat) (kind : KeyKind)
    (keys : RecordKeys) : (cache.leave left position).find? kind keys =
      if RecordKeys.Clash kind left keys ∧ cache.find? kind keys = some position then none
      else cache.find? kind keys := by
  rw [find?, find?, index_leave]
  cases hk : keys.key kind with
  | none => simp [KeyIndex.find?, RecordKeys.Clash, hk]
  | some key => simp [KeyIndex.find?, KeyIndex.get?_leave, RecordKeys.Clash, hk]

/-- What is entered under a key is found by it, unless another position has the key for an id. -/
lemma lookup_enter (hc : RecordKeys.Clash kind entered keys)
    (h : cache.find? .id keys = none ∨ cache.find? .id keys = some position) :
    (cache.enter entered position).lookup keys = some position := by
  rw [lookup_eq_some, find?_enter, find?_enter]
  by_cases hi : RecordKeys.Clash .id entered keys
  · rw [if_pos hi]
    exact .inl rfl
  · rw [if_neg hi]
    rcases h with hn | hs
    · cases kind with
      | id => exact absurd hc hi
      | clientId => exact .inr ⟨hn, if_pos hc⟩
    · exact .inl hs

/-- Entering more keys for a position takes none from it. -/
lemma lookup_enter_of_lookup (h : cache.lookup keys = some position) (entered : RecordKeys) :
    (cache.enter entered position).lookup keys = some position := by
  rw [lookup_eq_some, find?_enter, find?_enter]
  rcases lookup_eq_some.mp h with hi | ⟨hn, hc⟩
  · rw [hi, ite_self]
    exact .inl rfl
  · rw [hn, hc, ite_self]
    split_ifs
    · exact .inl rfl
    · exact .inr ⟨rfl, rfl⟩

lemma lookup_leave_of_ne {other : Nat} (h : cache.lookup keys = some position)
    (hne : position ≠ other) (left : RecordKeys) :
    (cache.leave left other).lookup keys = some position := by
  have hf : ∀ kind, cache.find? kind keys = some position ∨ cache.find? kind keys = none →
      (cache.leave left other).find? kind keys = cache.find? kind keys := by
    intro kind hk
    rw [find?_leave, if_neg]
    rintro ⟨-, ho⟩
    rcases hk with hk | hk
    · exact hne (Option.some.inj (hk.symm.trans ho))
    · exact absurd (hk.symm.trans ho) (by simp)
  rw [lookup_eq_some]
  rcases lookup_eq_some.mp h with hi | ⟨hn, hc⟩
  · exact .inl ((hf .id (.inl hi)).trans hi)
  · exact .inr ⟨(hf .id (.inr hn)).trans hn, (hf .clientId (.inl hc)).trans hc⟩

variable [Identified α]

lemma match?_eq_lookup (cache : KeyedCache α) (record : α) :
    cache.match? record = cache.lookup (.of record) := rfl

lemma Sound.clash (h : cache.Sound kind) (hf : cache.find? kind keys = some position) :
    ∃ found, cache.slot? position = some found ∧ RecordKeys.Clash kind (.of found) keys := by
  obtain ⟨key, hk, hg⟩ := KeyIndex.find?_eq_some.mp hf
  obtain ⟨found, hs, hsymbol, hkey⟩ := h.lookup hg
  exact ⟨found, hs, hsymbol, key, hkey, hk⟩

lemma clash_of_lookup (h : ∀ kind, cache.Sound kind) (hl : cache.lookup keys = some position) :
    ∃ found kind, cache.slot? position = some found ∧ RecordKeys.Clash kind (.of found) keys := by
  rcases lookup_eq_some.mp hl with hi | ⟨-, hc⟩
  · obtain ⟨found, hs, hf⟩ := (h .id).clash hi
    exact ⟨found, .id, hs, hf⟩
  · obtain ⟨found, hs, hf⟩ := (h .clientId).clash hc
    exact ⟨found, .clientId, hs, hf⟩

lemma Complete.find?_eq_some (h : cache.Complete kind) (hs : cache.slot? position = some older)
    (hc : RecordKeys.Clash kind (.of older) keys) : cache.find? kind keys = some position := by
  obtain ⟨hsymbol, key, hk, hr⟩ := hc
  refine KeyIndex.find?_eq_some.mpr ⟨key, hr, ?_⟩
  rw [← hsymbol]
  exact (h _ key).get? hs ⟨rfl, hk⟩

/-- A complete index leads to one record at most. -/
lemma Complete.eq_of_clash (h : cache.Complete kind) {p q : Nat} {a b : α}
    (hp : cache.slot? p = some a) (hq : cache.slot? q = some b)
    (ha : RecordKeys.Clash kind (.of a) keys) (hb : RecordKeys.Clash kind (.of b) keys) : p = q :=
  Option.some.inj ((h.find?_eq_some hp ha).symm.trans (h.find?_eq_some hq hb))

/-! A record that comes to the end. -/

lemma lookup_push (hc : RecordKeys.Clash kind (.of record) keys)
    (hn : cache.find? .id keys = none) :
    (cache.push record).lookup keys = some cache.nextPosition :=
  lookup_enter hc (.inl hn)

lemma slot?_push_self (cache : KeyedCache α) (record : α) :
    (cache.push record).slot? cache.nextPosition = some record := by
  rw [slot?_push, Function.update_self]

lemma records_foldl_push (cache : KeyedCache α) (records : List α) :
    (records.foldl push cache).records = cache.records ++ records := by
  obtain ⟨byId, byClientId, h⟩ := foldl_push_frame cache records
  rw [h, KeyedCache.records, List.filterMap_append, filterMap_map_some]
  rfl

/-- The newest record is found where closing up puts it, unless an older one has the key for its
id. -/
lemma exists_compact {front : List α} (hr : cache.records = front ++ [record])
    (hs : cache.slot? position = some record) :
    ∃ other, cache.compact.slot? other = some record ∧ ∀ keys kind,
      RecordKeys.Clash kind (.of record) keys → cache.lookup keys = some position →
      (∀ a ∈ front, ¬ RecordKeys.Clash .id (.of a) keys) →
      cache.compact.lookup keys = some other := by
  rw [compact]
  split_ifs
  · exact ⟨position, hs, fun keys kind _ hl _ => hl⟩
  · set emptied := { cache with slots := [], byId := .empty, byClientId := .empty }
    rw [hr, List.foldl_append]
    refine ⟨_, slot?_push_self (front.foldl push emptied) record, fun keys kind hc _ hf => ?_⟩
    refine lookup_push hc ?_
    by_contra he
    obtain ⟨found, hfound⟩ := Option.ne_none_iff_exists'.mp he
    have hsound : (front.foldl push emptied).Sound .id :=
      fun _ _ => (soundAt_of_empty rfl rfl).foldl_push front
    obtain ⟨a, ha, hclash⟩ := hsound.clash hfound
    have hmem := mem_records.mpr ⟨found, ha⟩
    rw [records_foldl_push] at hmem
    exact hf a hmem hclash

/-! A record that takes the place of an older one. -/

/-- Where a record left, its keys do not lead to another one. -/
lemma find?_vacate_of_lookup (h : cache.Sound .id) (hs : cache.slot? position = some older)
    (hl : cache.lookup keys = some position) :
    (cache.vacate position older).find? .id keys = none := by
  have hv : (cache.vacate position older).find? .id keys =
      if RecordKeys.Clash .id (.of older) keys ∧ cache.find? .id keys = some position then none
      else cache.find? .id keys :=
    find?_leave (cache.setSlot position none) ..
  rw [hv]
  rcases lookup_eq_some.mp hl with hi | ⟨hn, -⟩
  · obtain ⟨found, hf, hc⟩ := h.clash hi
    obtain rfl : found = older := Option.some.inj (hf.symm.trans hs)
    exact if_pos ⟨hc, hi⟩
  · rw [hn, ite_self]

lemma slot?_replace (hs : cache.slot? position = some older) (newer : α) :
    (cache.replace position older newer).slot? position = some newer := by
  change (cache.setSlot position (some newer)).slot? position = some newer
  rw [slot?_setSlot hs, Function.update_self]

/-- A changed record is found under its keys, unless another record has the key for its id. -/
lemma exists_exchange_of_vacated (hi : cache.Complete .id) (hs : cache.slot? position = some older)
    (newer : α) : ∃ other, (cache.exchange position older newer).slot? other = some newer ∧
      ∀ keys kind, RecordKeys.Clash kind (.of newer) keys →
        (cache.vacate position older).find? .id keys = none →
        (cache.exchange position older newer).lookup keys = some other := by
  rw [exchange]
  split_ifs
  · set vacated := cache.vacate position older
    have hr : (vacated.push newer).trimFront.records = vacated.records ++ [newer] := by
      rw [records_trimFront, records_push]
    have hp : (vacated.push newer).trimFront.slot? vacated.nextPosition = some newer := by
      rw [slot?_trimFront, slot?_push_self]
    obtain ⟨other, hother, hlookup⟩ := exists_compact hr hp
    refine ⟨other, hother, fun keys kind hc hn => ?_⟩
    refine hlookup keys kind hc (lookup_push hc hn) fun a ha hclash => ?_
    -- The index is complete, so a record with the key for its id would have been found.
    obtain ⟨there, ht⟩ := mem_records.mp ha
    have hfound := (hi.vacate hs).find?_eq_some ht hclash
    exact absurd (hn.symm.trans hfound) (by simp)
  · refine ⟨position, slot?_replace hs newer, fun keys kind hc hn => ?_⟩
    rw [replace]
    exact lookup_enter hc (.inl hn)

/-- The keys of a changed record find it if they led to the record before. -/
lemma exists_exchange (h : cache.Sound .id) (hi : cache.Complete .id)
    (hs : cache.slot? position = some older) (newer : α) :
    ∃ other, (cache.exchange position older newer).slot? other = some newer ∧ ∀ keys kind,
      RecordKeys.Clash kind (.of newer) keys → cache.lookup keys = some position →
      (cache.exchange position older newer).lookup keys = some other := by
  obtain ⟨other, hother, hlookup⟩ := exists_exchange_of_vacated hi hs newer
  exact ⟨other, hother, fun keys kind hc hl =>
    hlookup keys kind hc (find?_vacate_of_lookup h hs hl)⟩

lemma get?_exchange {symbol name : String} (h : cache.Sound .id) (hi : cache.Complete .id)
    (hs : cache.slot? position = some older) (hp : cache.position? symbol name = some position)
    (hn : (RecordKeys.of newer).Names symbol name) :
    (cache.exchange position older newer).get? symbol name = some newer := by
  obtain ⟨kind, hc⟩ := hn
  obtain ⟨other, hslot, hlookup⟩ := exists_exchange h hi hs newer
  rw [get?, position?_eq_lookup, hlookup _ kind hc hp]
  exact hslot

lemma lookup_replace_of_keys_eq (hk : RecordKeys.of newer = RecordKeys.of older)
    (hl : cache.lookup keys = some position) :
    (cache.replace position older newer).lookup keys = some position := by
  have hf : ∀ kind, (cache.replace position older newer).find? kind keys =
      (cache.enter (.of newer) position).find? kind keys := by
    intro kind
    have hr : (cache.replace position older newer).find? kind keys =
        if RecordKeys.Clash kind (.of newer) keys then some position
        else (cache.leave (.of older) position).find? kind keys :=
      find?_enter ((cache.setSlot position (some newer)).leave (.of older) position) ..
    rw [hr, find?_enter, find?_leave, hk]
    split_ifs with hc hd
    · rfl
    · exact absurd hd.1 hc
    · rfl
  have he := lookup_enter_of_lookup hl (RecordKeys.of newer)
  rw [lookup_eq_some] at he ⊢
  rw [hf, hf]
  exact he

lemma exchange_of_newest (h : position + 1 = cache.nextPosition) (older newer : α) :
    cache.exchange position older newer = cache.replace position older newer :=
  if_neg fun hm => hm.2 h

lemma nextPosition_replace (cache : KeyedCache α) (position : Nat) (older newer : α) :
    (cache.replace position older newer).nextPosition = cache.nextPosition :=
  nextPosition_setSlot cache position (some newer)

/-! A record that is new. -/

/-- A record that is added is the newest, also where the oldest one leaves for it. -/
lemma Packed.newest_accept (h : cache.Packed) (hl : 0 < cache.limit) (record : α) :
    (cache.accept record).slot? cache.nextPosition = some record ∧
      (cache.accept record).nextPosition = cache.nextPosition + 1 ∧
      ∀ keys kind, RecordKeys.Clash kind (.of record) keys → cache.find? .id keys = none →
        (cache.accept record).lookup keys = some cache.nextPosition := by
  have hslot : (cache.grown record).slot? cache.nextPosition = some record :=
    slot?_push_self cache record
  have hnext : (cache.grown record).nextPosition = cache.nextPosition + 1 := by
    rw [nextPosition, nextPosition, slots_grown, List.length_append, List.length_singleton,
      ← Nat.add_assoc]
    rfl
  have hlookup : ∀ keys kind, RecordKeys.Clash kind (.of record) keys →
      cache.find? .id keys = none → (cache.grown record).lookup keys = some cache.nextPosition :=
    fun keys kind hc hn => lookup_push hc hn
  by_cases hroom : cache.live < cache.limit
  · rw [accept_of_room hroom]
    exact ⟨hslot, hnext, hlookup⟩
  · obtain ⟨first, rest, hs, ha⟩ := h.accept_of_full (Nat.not_lt.mp hroom) record
    have hne : cache.nextPosition ≠ (cache.grown record).base :=
      (h.base_lt_nextPosition (by omega)).ne'
    rw [ha]
    refine ⟨?_, ?_, fun keys kind hc hn => ?_⟩
    · rw [slot?_trimFront]
      change ((cache.grown record).setSlot (cache.grown record).base none).slot? _ = _
      rw [slot?_setSlot (slot?_base hs), Function.update_of_ne hne, hslot]
    · rw [nextPosition_trimFront, ← hnext]
      exact nextPosition_setSlot (cache.grown record) _ none
    · exact lookup_leave_of_ne (hlookup keys kind hc hn) hne (.of first)

/-! Keys that lead somewhere. -/

lemma exists_of_contains (h : ∀ kind, cache.Sound kind) {symbol name : String}
    (hc : cache.contains symbol name = true) : ∃ position record,
      cache.position? symbol name = some position ∧ cache.slot? position = some record ∧
        (RecordKeys.of record).Names symbol name := by
  obtain ⟨position, hp⟩ := Option.isSome_iff_exists.mp hc
  have hl : cache.lookup (.named symbol name) = some position := hp
  obtain ⟨record, kind, hs, hclash⟩ := clash_of_lookup h hl
  exact ⟨position, record, hp, hs, kind, hclash⟩

lemma find?_push (cache : KeyedCache α) (record : α) (kind : KeyKind) (keys : RecordKeys) :
    (cache.push record).find? kind keys =
      if RecordKeys.Clash kind (.of record) keys then some cache.nextPosition
      else cache.find? kind keys :=
  find?_enter cache ..

lemma find?_vacate_of_not_clash (hc : ¬ RecordKeys.Clash kind (.of older) keys) (position : Nat) :
    (cache.vacate position older).find? kind keys = cache.find? kind keys := by
  have hv : (cache.vacate position older).find? kind keys =
      if RecordKeys.Clash kind (.of older) keys ∧ cache.find? kind keys = some position then none
      else cache.find? kind keys :=
    find?_leave (cache.setSlot position none) ..
  rw [hv, if_neg fun h => hc h.1]

lemma find?_foldl_push_eq_none {records : List α} :
    (records.foldl push cache).find? kind keys = none ↔
      cache.find? kind keys = none ∧
        ∀ record ∈ records, ¬ RecordKeys.Clash kind (.of record) keys := by
  induction records generalizing cache with
  | nil => simp
  | cons record rest ih =>
    rw [List.foldl_cons, ih, find?_push, List.forall_mem_cons, ← and_assoc]
    split_ifs with hc
    · simp [hc]
    · simp [hc]

/-- Closing up takes no record away, so keys that led to one go on leading somewhere. -/
lemma Sound.find?_compact (h : cache.Sound kind) (hf : cache.find? kind keys ≠ none) :
    cache.compact.find? kind keys ≠ none := by
  rw [KeyedCache.compact]
  split_ifs
  · exact hf
  · intro hn
    obtain ⟨position, hp⟩ := Option.ne_none_iff_exists'.mp hf
    obtain ⟨record, hs, hc⟩ := h.clash hp
    exact (find?_foldl_push_eq_none.mp hn).2 record (mem_records.mpr ⟨position, hs⟩) hc

lemma Sound.find?_exchange_of_clash (h : cache.Sound kind) (hs : cache.slot? position = some older)
    (hc : RecordKeys.Clash kind (.of newer) keys) :
    (cache.exchange position older newer).find? kind keys ≠ none := by
  rw [KeyedCache.exchange]
  split_ifs
  · refine Sound.find?_compact ((h.vacate hs).push newer).trimFront ?_
    change ((cache.vacate position older).push newer).find? kind keys ≠ none
    rw [find?_push, if_pos hc]
    simp
  · rw [KeyedCache.replace, find?_enter, if_pos hc]
    simp

/-- Where a record keeps its keys, all keys go on leading somewhere. -/
lemma Sound.find?_exchange_of_keys_eq (h : cache.Sound kind)
    (hs : cache.slot? position = some older) (hk : RecordKeys.of newer = .of older)
    (hf : cache.find? kind keys ≠ none) :
    (cache.exchange position older newer).find? kind keys ≠ none := by
  by_cases hc : RecordKeys.Clash kind (.of newer) keys
  · exact h.find?_exchange_of_clash hs hc
  · have hv : (cache.vacate position older).find? kind keys = cache.find? kind keys :=
      find?_vacate_of_not_clash (hk ▸ hc) position
    rw [KeyedCache.exchange]
    split_ifs
    · refine Sound.find?_compact ((h.vacate hs).push newer).trimFront ?_
      change ((cache.vacate position older).push newer).find? kind keys ≠ none
      rw [find?_push, if_neg hc, hv]
      exact hf
    · rw [KeyedCache.replace, find?_enter, if_neg hc]
      change (cache.vacate position older).find? kind keys ≠ none
      rw [hv]
      exact hf

lemma Packed.find?_accept_of_clash (h : cache.Packed) (hl : 0 < cache.limit)
    (hc : RecordKeys.Clash kind (.of record) keys) :
    (cache.accept record).find? kind keys = some cache.nextPosition := by
  have hg : (cache.grown record).find? kind keys = some cache.nextPosition := by
    change (cache.push record).find? kind keys = _
    rw [find?_push, if_pos hc]
  by_cases hroom : cache.live < cache.limit
  · rw [accept_of_room hroom]
    exact hg
  · obtain ⟨first, rest, hs, ha⟩ := h.accept_of_full (Nat.not_lt.mp hroom) record
    have hne : cache.nextPosition ≠ (cache.grown record).base :=
      (h.base_lt_nextPosition (by omega)).ne'
    rw [ha]
    change ((cache.grown record).leave (.of first) (cache.grown record).base).find? kind keys = _
    rw [find?_leave, hg, if_neg fun hleft => hne (Option.some.inj hleft.2)]

end KeyedCache

end MarketFeed
