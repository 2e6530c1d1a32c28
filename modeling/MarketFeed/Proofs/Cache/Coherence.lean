import MarketFeed.Proofs.Cache.Merging
import MarketFeed.Proofs.Cache.Packing

/-!
# Coherence of a keyed cache

The indexes of a cache agree with its slots: an entry leads to a record that carries its key, and
as long as changes leave the symbols and ids of records alone, each record with an id is found under
it. An operation that an overflow ends leaves a record in its place with the keys it has come to,
and the indexes as they were; it breaks this for the keys that the record lost or got, and for no
other ones. So both are stated for one key at a time. Together with the packing of the slots this is
what every run of operations keeps up.
-/

namespace MarketFeed.KeyedCache

variable {α : Type}

def index (cache : KeyedCache α) : KeyKind → KeyIndex
  | .id => cache.byId
  | .clientId => cache.byClientId

lemma index_enter (cache : KeyedCache α) (keys : RecordKeys) (position : Nat) (kind : KeyKind) :
    (cache.enter keys position).index kind =
      (cache.index kind).enter keys.symbol (keys.key kind) position := by
  cases kind <;> rfl

lemma index_leave (cache : KeyedCache α) (keys : RecordKeys) (position : Nat) (kind : KeyKind) :
    (cache.leave keys position).index kind =
      (cache.index kind).leave keys.symbol (keys.key kind) position := by
  cases kind <;> rfl

lemma index_setSlot (cache : KeyedCache α) (position : Nat) (content : Option α) (kind : KeyKind) :
    (cache.setSlot position content).index kind = cache.index kind := by
  cases kind <;> rfl

/-- A record that was found was found by an entry of the key. -/
lemma exists_index_of_get? {cache : KeyedCache α} {symbol key : String} {record : α}
    (hg : cache.get? symbol key = some record) : ∃ kind position,
      (cache.index kind).get? (symbol, key) = some position ∧
        cache.slot? position = some record := by
  obtain ⟨position, hp, hs⟩ := Option.bind_eq_some_iff.mp hg
  rw [position?] at hp
  cases hi : cache.byId.get? (symbol, key) with
  | none =>
    rw [hi] at hp
    exact ⟨.clientId, position, hp, hs⟩
  | some found =>
    rw [hi] at hp
    exact ⟨.id, position, hi.trans hp, hs⟩

variable [Identified α]

/-- The entry of the key leads to a record that carries it. -/
def SoundAt (kind : KeyKind) (symbol key : String) (cache : KeyedCache α) : Prop :=
  (cache.index kind).SoundAt kind symbol key cache.held

/-- A record that carries the key is found under it. -/
def CompleteAt (kind : KeyKind) (symbol key : String) (cache : KeyedCache α) : Prop :=
  (cache.index kind).CompleteAt kind symbol key cache.held

/-- The entries of an index lead to records that carry their keys. -/
def Sound (kind : KeyKind) (cache : KeyedCache α) : Prop :=
  ∀ symbol key, cache.SoundAt kind symbol key

/-- The records with a key of this sort are found under it. -/
def Complete (kind : KeyKind) (cache : KeyedCache α) : Prop :=
  ∀ symbol key, cache.CompleteAt kind symbol key

/-- No record of the cache carries the key if this one does. -/
def NewAt (kind : KeyKind) (symbol key : String) (cache : KeyedCache α) (record : α) : Prop :=
  (RecordKeys.of record).Carries kind symbol key →
    ∀ other ∈ cache.records, ¬ (RecordKeys.of other).Carries kind symbol key

/-- No record of the cache carries the key that this one has. -/
def NewTo (kind : KeyKind) (cache : KeyedCache α) (record : α) : Prop :=
  ∀ symbol key, cache.NewAt kind symbol key record

/-- An overflow ends the operation where the record that it found has lost the key. -/
def EndsTaking (kind : KeyKind) (symbol key : String) (cache : KeyedCache α)
    (operation : KeyedOperation α) : Prop :=
  ∃ position older newer, cache.Breaks operation position older newer ∧
    (RecordKeys.of older).Carries kind symbol key ∧
    ¬ (RecordKeys.of newer).Carries kind symbol key

/-- An overflow ends the operation where the record that it found has come to the key. -/
def EndsGiving (kind : KeyKind) (symbol key : String) (cache : KeyedCache α)
    (operation : KeyedOperation α) : Prop :=
  ∃ position older newer, cache.Breaks operation position older newer ∧
    ¬ (RecordKeys.of older).Carries kind symbol key ∧
    (RecordKeys.of newer).Carries kind symbol key

variable {cache : KeyedCache α} {operation : KeyedOperation α}
  {operations : List (KeyedOperation α)} {kind : KeyKind} {symbol key : String} {position : Nat}
  {record older newer : α}

lemma index_vacate (cache : KeyedCache α) (position : Nat) (older : α) (kind : KeyKind) :
    (cache.vacate position older).index kind = (cache.index kind).leave (RecordKeys.of older).symbol
      ((RecordKeys.of older).key kind) position :=
  index_leave ..

lemma held_vacate (h : cache.slot? position = some older) :
    (cache.vacate position older).held = Function.update cache.held position none :=
  held_setSlot h none

lemma index_replace (cache : KeyedCache α) (position : Nat) (older newer : α) (kind : KeyKind) :
    (cache.replace position older newer).index kind =
      ((cache.vacate position older).index kind).enter (RecordKeys.of newer).symbol
        ((RecordKeys.of newer).key kind) position := by
  rw [replace, index_enter, index_leave, index_vacate]
  rfl

lemma held_replace (h : cache.slot? position = some older) (newer : α) :
    (cache.replace position older newer).held =
      Function.update (cache.vacate position older).held position (some (.of newer)) := by
  rw [held_vacate h, Function.update_idem]
  exact held_setSlot h (some newer)

lemma index_push (cache : KeyedCache α) (record : α) (kind : KeyKind) :
    (cache.push record).index kind = (cache.index kind).enter (RecordKeys.of record).symbol
      ((RecordKeys.of record).key kind) cache.nextPosition :=
  index_enter ..

/-! Entries lead to records that carry their keys. -/

lemma soundAt_of_empty (hi : cache.byId = .empty) (hc : cache.byClientId = .empty) :
    cache.SoundAt kind symbol key := by
  have h : cache.index kind = .empty := by
    cases kind with
    | id => exact hi
    | clientId => exact hc
  rw [SoundAt, h]
  exact KeyIndex.soundAt_empty _

lemma sound_of_empty (hi : cache.byId = .empty) (hc : cache.byClientId = .empty) :
    cache.Sound kind :=
  fun _ _ => soundAt_of_empty hi hc

lemma SoundAt.lookup (h : cache.SoundAt kind symbol key)
    (hi : (cache.index kind).get? (symbol, key) = some position) :
    ∃ record, cache.slot? position = some record ∧
      (RecordKeys.of record).Carries kind symbol key := by
  obtain ⟨keys, hh, hcarries⟩ := h _ hi
  obtain ⟨record, hs, rfl⟩ := held_eq_some.mp hh
  exact ⟨record, hs, hcarries⟩

lemma SoundAt.vacate (h : cache.SoundAt kind symbol key) (hs : cache.slot? position = some older) :
    (cache.vacate position older).SoundAt kind symbol key := by
  rw [SoundAt, held_vacate hs, index_vacate]
  exact KeyIndex.SoundAt.leave h (held_of_slot? hs)

lemma SoundAt.replace (h : cache.SoundAt kind symbol key) (hs : cache.slot? position = some older)
    (newer : α) : (cache.replace position older newer).SoundAt kind symbol key := by
  rw [SoundAt, held_replace hs, index_replace]
  refine KeyIndex.SoundAt.enter (h.vacate hs) ?_
  rw [held_vacate hs, Function.update_self]

lemma SoundAt.push (h : cache.SoundAt kind symbol key) (record : α) :
    (cache.push record).SoundAt kind symbol key := by
  rw [SoundAt, held_push, index_push]
  exact KeyIndex.SoundAt.enter h (held_of_ge (Nat.le_refl _))

lemma SoundAt.trimFront (h : cache.SoundAt kind symbol key) :
    cache.trimFront.SoundAt kind symbol key := by
  rw [SoundAt, held_trimFront]
  exact h

lemma SoundAt.foldl_push (h : cache.SoundAt kind symbol key) (records : List α) :
    (records.foldl KeyedCache.push cache).SoundAt kind symbol key := by
  induction records generalizing cache with
  | nil => exact h
  | cons record rest ih => exact ih (h.push record)

lemma SoundAt.compact (h : cache.SoundAt kind symbol key) :
    cache.compact.SoundAt kind symbol key := by
  rw [KeyedCache.compact]
  split_ifs
  · exact h
  · exact SoundAt.foldl_push (soundAt_of_empty rfl rfl) _

lemma SoundAt.exchange (h : cache.SoundAt kind symbol key)
    (hs : cache.slot? position = some older) (newer : α) :
    (cache.exchange position older newer).SoundAt kind symbol key := by
  rw [KeyedCache.exchange]
  split_ifs
  · exact ((h.vacate hs).push newer).trimFront.compact
  · exact h.replace hs newer

lemma SoundAt.accept (h : cache.SoundAt kind symbol key) (hp : cache.Packed) (record : α) :
    (cache.accept record).SoundAt kind symbol key := by
  have hg : (cache.grown record).SoundAt kind symbol key := h.push record
  by_cases hl : cache.live < cache.limit
  · rw [accept_of_room hl]
    exact hg
  · obtain ⟨first, rest, hs, ha⟩ := hp.accept_of_full (Nat.not_lt.mp hl) record
    rw [ha]
    exact SoundAt.trimFront (hg.vacate (slot?_base hs))

/-- A record that is left with other keys in its place is still where the entry of this key leads,
unless it has lost the key. -/
lemma SoundAt.setSlot (h : cache.SoundAt kind symbol key) (hs : cache.slot? position = some older)
    (hk : (RecordKeys.of older).Carries kind symbol key →
      (RecordKeys.of newer).Carries kind symbol key) :
    (cache.setSlot position (some newer)).SoundAt kind symbol key := by
  rw [SoundAt, held_setSlot hs, index_setSlot]
  exact KeyIndex.SoundAt.update h (held_of_slot? hs) hk

/-- The entry of a key goes on to lead to a record that carries it, unless an overflow ends the
operation after it took the key from its record. -/
lemma SoundAt.after (h : cache.SoundAt kind symbol key) (hp : cache.Packed)
    (hn : ¬ cache.EndsTaking kind symbol key operation) :
    (cache.after operation).SoundAt kind symbol key := by
  have ho := perform_outcome cache operation
  generalize cache.answer operation = answer, cache.after operation = after at ho
  cases ho with
  | changed hm hc => exact h.exchange hm.slot _
  | @ended operation position older newer overflow hm hc =>
    refine h.setSlot hm.slot fun hold => ?_
    by_contra hnew
    exact hn ⟨position, older, newer, ⟨hm, overflow, hc⟩, hold, hnew⟩
  | added hm => exact h.accept hp _
  | missed hm => exact h

lemma SoundAt.run (h : cache.SoundAt kind symbol key) (hp : cache.Packed)
    (hn : ¬ cache.Sometime (EndsTaking kind symbol key) operations) :
    (cache.run operations).SoundAt kind symbol key := by
  have hrun := Along.run
    (Q := fun cache : KeyedCache α => cache.Packed ∧ cache.SoundAt kind symbol key)
    (fun cache operation h hn => ⟨packed_after h.1 operation, h.2.after h.1 hn⟩) ⟨hp, h⟩
    (along_not_of_not_sometime hn)
  exact hrun.2

lemma not_endsTaking_of_completes (h : cache.Completes operation) :
    ¬ cache.EndsTaking kind symbol key operation := by
  rintro ⟨position, older, newer, hb, -⟩
  exact hb.not_completes h

lemma not_endsGiving_of_completes (h : cache.Completes operation) :
    ¬ cache.EndsGiving kind symbol key operation := by
  rintro ⟨position, older, newer, hb, -⟩
  exact hb.not_completes h

/-- Without an overflow, entries go on to lead to records that carry their keys. -/
lemma sound_after (hp : cache.Packed) (h : cache.Sound kind) (hc : cache.Completes operation) :
    (cache.after operation).Sound kind :=
  fun symbol key => (h symbol key).after hp (not_endsTaking_of_completes hc)

lemma carries_of_get? (h : ∀ kind, cache.Sound kind) (hg : cache.get? symbol key = some record) :
    ∃ kind, (RecordKeys.of record).Carries kind symbol key := by
  obtain ⟨kind, position, hi, hs⟩ := exists_index_of_get? hg
  obtain ⟨found, hf, hcarries⟩ := (h kind symbol key).lookup hi
  obtain rfl : found = record := Option.some.inj (hf.symm.trans hs)
  exact ⟨kind, hcarries⟩

/-! Records are found under their keys. -/

lemma CompleteAt.get? (h : cache.CompleteAt kind symbol key)
    (hs : cache.slot? position = some record)
    (hc : (RecordKeys.of record).Carries kind symbol key) :
    (cache.index kind).get? (symbol, key) = some position :=
  h _ _ (held_of_slot? hs) hc

lemma CompleteAt.eq_of_carries (h : cache.CompleteAt kind symbol key) {p q : Nat} {a b : α}
    (hp : cache.slot? p = some a) (hq : cache.slot? q = some b)
    (ha : (RecordKeys.of a).Carries kind symbol key)
    (hb : (RecordKeys.of b).Carries kind symbol key) : p = q :=
  Option.some.inj ((h.get? hp ha).symm.trans (h.get? hq hb))

lemma CompleteAt.pairwise (h : cache.CompleteAt kind symbol key) :
    cache.records.Pairwise fun a b => (RecordKeys.of a).Carries kind symbol key →
      ¬ (RecordKeys.of b).Carries kind symbol key :=
  pairwise_records fun _ _ _ _ hne hp hq ha hb => hne (h.eq_of_carries hp hq ha hb)

/-- The records of a complete index do not clash. -/
lemma Complete.pairwise (h : cache.Complete kind) :
    cache.records.Pairwise fun a b => ¬ RecordKeys.Clash kind (.of a) (.of b) := by
  refine pairwise_records fun p q a b hne hp hq hclash => ?_
  obtain ⟨hs, key, ha, hb⟩ := hclash
  exact hne ((h _ key).eq_of_carries hp hq ⟨hs, ha⟩ ⟨rfl, hb⟩)

lemma CompleteAt.get?_of_mem (h : cache.CompleteAt .id symbol key) (hm : record ∈ cache.records)
    (hc : (RecordKeys.of record).Carries .id symbol key) :
    cache.get? symbol key = some record := by
  obtain ⟨position, hs⟩ := mem_records.mp hm
  have hi : cache.byId.get? (symbol, key) = some position := h.get? hs hc
  rw [KeyedCache.get?, position?, hi]
  exact hs

lemma Complete.get?_of_mem (h : cache.Complete .id) (hm : record ∈ cache.records) {id : String}
    (hid : (RecordKeys.of record).id = some id) :
    cache.get? (RecordKeys.of record).symbol id = some record :=
  (h _ id).get?_of_mem hm ⟨rfl, hid⟩

lemma completeAt_of_empty (h : cache.slots = []) : cache.CompleteAt kind symbol key := by
  intro position keys hh
  obtain ⟨record, hr, -⟩ := held_eq_some.mp hh
  have hm : record ∈ cache.records := mem_records.mpr ⟨position, hr⟩
  rw [records, h] at hm
  exact absurd hm (by simp)

lemma complete_of_empty (h : cache.slots = []) : cache.Complete kind :=
  fun _ _ => completeAt_of_empty h

/-- A record that is new carries no key that a record at a position has. -/
lemma NewAt.held (h : cache.NewAt kind symbol key record)
    (hc : (RecordKeys.of record).Carries kind symbol key) :
    ∀ other owner, cache.held other = some owner → ¬ owner.Carries kind symbol key := by
  intro other owner ho
  obtain ⟨found, hf, rfl⟩ := held_eq_some.mp ho
  exact h hc found (mem_records.mpr ⟨other, hf⟩)

lemma CompleteAt.vacate (h : cache.CompleteAt kind symbol key)
    (hs : cache.slot? position = some older) :
    (cache.vacate position older).CompleteAt kind symbol key := by
  rw [CompleteAt, held_vacate hs, index_vacate]
  exact KeyIndex.CompleteAt.leave h (held_of_slot? hs)

lemma CompleteAt.replace (h : cache.CompleteAt kind symbol key)
    (hs : cache.slot? position = some older)
    (hn : (cache.vacate position older).NewAt kind symbol key newer) :
    (cache.replace position older newer).CompleteAt kind symbol key := by
  rw [CompleteAt, held_replace hs, index_replace]
  exact KeyIndex.CompleteAt.enter (h.vacate hs) hn.held

lemma CompleteAt.push (h : cache.CompleteAt kind symbol key)
    (hn : cache.NewAt kind symbol key record) :
    (cache.push record).CompleteAt kind symbol key := by
  rw [CompleteAt, held_push, index_push]
  exact KeyIndex.CompleteAt.enter h hn.held

lemma CompleteAt.trimFront (h : cache.CompleteAt kind symbol key) :
    cache.trimFront.CompleteAt kind symbol key := by
  rw [CompleteAt, held_trimFront]
  exact h

lemma CompleteAt.foldl_push (h : cache.CompleteAt kind symbol key) {records : List α}
    (hd : (cache.records ++ records).Pairwise fun a b =>
      (RecordKeys.of a).Carries kind symbol key → ¬ (RecordKeys.of b).Carries kind symbol key) :
    (records.foldl KeyedCache.push cache).CompleteAt kind symbol key := by
  induction records generalizing cache with
  | nil => exact h
  | cons record rest ih =>
    have hapart := (List.pairwise_append.mp hd).2.2
    have hnew : cache.NewAt kind symbol key record := fun hc other ho hother =>
      hapart other ho record (List.mem_cons_self ..) hother hc
    refine ih (h.push hnew) ?_
    rw [records_push, List.append_assoc]
    exact hd

lemma CompleteAt.compact (h : cache.CompleteAt kind symbol key) :
    cache.compact.CompleteAt kind symbol key := by
  rw [KeyedCache.compact]
  split_ifs
  · exact h
  · -- Each record is entered anew, and no two of them have the key.
    exact CompleteAt.foldl_push (completeAt_of_empty rfl) h.pairwise

lemma CompleteAt.exchange (h : cache.CompleteAt kind symbol key)
    (hs : cache.slot? position = some older)
    (hn : (cache.vacate position older).NewAt kind symbol key newer) :
    (cache.exchange position older newer).CompleteAt kind symbol key := by
  rw [KeyedCache.exchange]
  split_ifs
  · exact ((h.vacate hs).push hn).trimFront.compact
  · exact h.replace hs hn

lemma CompleteAt.accept (h : cache.CompleteAt kind symbol key) (hp : cache.Packed)
    (hn : cache.NewAt kind symbol key record) :
    (cache.accept record).CompleteAt kind symbol key := by
  have hg : (cache.grown record).CompleteAt kind symbol key := h.push hn
  by_cases hl : cache.live < cache.limit
  · rw [accept_of_room hl]
    exact hg
  · obtain ⟨first, rest, hs, ha⟩ := hp.accept_of_full (Nat.not_lt.mp hl) record
    rw [ha]
    exact CompleteAt.trimFront (hg.vacate (slot?_base hs))

/-- A record that is left with other keys in its place is found under this one as before, unless it
has come to the key only now. -/
lemma CompleteAt.setSlot (h : cache.CompleteAt kind symbol key)
    (hs : cache.slot? position = some older)
    (hk : (RecordKeys.of newer).Carries kind symbol key →
      (RecordKeys.of older).Carries kind symbol key) :
    (cache.setSlot position (some newer)).CompleteAt kind symbol key := by
  rw [CompleteAt, held_setSlot hs, index_setSlot]
  exact KeyIndex.CompleteAt.update h (held_of_slot? hs) hk

lemma Complete.vacate (h : cache.Complete kind) (hs : cache.slot? position = some older) :
    (cache.vacate position older).Complete kind :=
  fun symbol key => (h symbol key).vacate hs

lemma Complete.exchange (h : cache.Complete kind) (hs : cache.slot? position = some older)
    (hn : (cache.vacate position older).NewTo kind newer) :
    (cache.exchange position older newer).Complete kind :=
  fun symbol key => (h symbol key).exchange hs (hn symbol key)

lemma Complete.accept (h : cache.Complete kind) (hp : cache.Packed)
    (hn : cache.NewTo kind record) : (cache.accept record).Complete kind :=
  fun symbol key => (h symbol key).accept hp (hn symbol key)

lemma Sound.lookup (h : cache.Sound kind)
    (hi : (cache.index kind).get? (symbol, key) = some position) :
    ∃ record, cache.slot? position = some record ∧ (RecordKeys.of record).symbol = symbol ∧
      (RecordKeys.of record).key kind = some key :=
  (h symbol key).lookup hi

lemma Sound.vacate (h : cache.Sound kind) (hs : cache.slot? position = some older) :
    (cache.vacate position older).Sound kind :=
  fun symbol key => (h symbol key).vacate hs

lemma Sound.push (h : cache.Sound kind) (record : α) : (cache.push record).Sound kind :=
  fun symbol key => (h symbol key).push record

lemma Sound.trimFront (h : cache.Sound kind) : cache.trimFront.Sound kind :=
  fun symbol key => (h symbol key).trimFront

lemma Sound.exchange (h : cache.Sound kind) (hs : cache.slot? position = some older) (newer : α) :
    (cache.exchange position older newer).Sound kind :=
  fun symbol key => (h symbol key).exchange hs newer

lemma Sound.accept (h : cache.Sound kind) (hp : cache.Packed) (record : α) :
    (cache.accept record).Sound kind :=
  fun symbol key => (h symbol key).accept hp record

/-! Records that are new. -/

/-- The records of a cache that one has left stand at the other positions. -/
lemma exists_slot_of_mem_vacate (hs : cache.slot? position = some older)
    (hm : record ∈ (cache.vacate position older).records) :
    ∃ other, other ≠ position ∧ cache.slot? other = some record := by
  obtain ⟨other, ho⟩ := mem_records.mp hm
  change (cache.setSlot position none).slot? other = some record at ho
  rw [slot?_setSlot hs] at ho
  by_cases hne : other = position
  · subst hne
    rw [Function.update_self] at ho
    exact absurd ho (by simp)
  · rw [Function.update_of_ne hne] at ho
    exact ⟨other, hne, ho⟩

/-- A record of the same id would have been found. -/
lemma CompleteAt.newAt_of_unmatched (h : cache.CompleteAt .id symbol key)
    (hn : (cache.match? record).bind cache.slot? = none) : cache.NewAt .id symbol key record := by
  intro hc other hm ho
  obtain ⟨position, hs⟩ := mem_records.mp hm
  have hf : cache.byId.find? (RecordKeys.of record).symbol (RecordKeys.of record).id =
      some position := by
    refine KeyIndex.find?_eq_some.mpr ⟨key, hc.2, ?_⟩
    rw [hc.1]
    exact h.get? hs ho
  rw [match?, hf] at hn
  change cache.slot? position = none at hn
  rw [hs] at hn
  exact absurd hn (by simp)

/-- A record that took the symbol and the id of a newer one is new where that was merged. -/
lemma CompleteAt.newAt_of_match (h : cache.CompleteAt .id symbol key)
    (hm : cache.match? record = some position) (hslot : cache.slot? position = some older)
    (hsymbol : (RecordKeys.of newer).symbol = (RecordKeys.of record).symbol)
    (hid : (RecordKeys.of newer).id = (RecordKeys.of record).id) :
    (cache.vacate position older).NewAt .id symbol key newer := by
  intro hc other ho hother
  obtain ⟨there, hne, ht⟩ := exists_slot_of_mem_vacate hslot ho
  have hf : cache.byId.find? (RecordKeys.of record).symbol (RecordKeys.of record).id =
      some there := by
    refine KeyIndex.find?_eq_some.mpr ⟨key, hid.symm.trans hc.2, ?_⟩
    rw [← hsymbol, hc.1]
    exact h.get? ht hother
  rw [match?, hf] at hm
  exact hne (Option.some.inj hm)

/-- A record that has not come to a key only now is new where it stood. -/
lemma CompleteAt.newAt_of_kept (h : cache.CompleteAt kind symbol key)
    (hslot : cache.slot? position = some older)
    (hk : (RecordKeys.of newer).Carries kind symbol key →
      (RecordKeys.of older).Carries kind symbol key) :
    (cache.vacate position older).NewAt kind symbol key newer := by
  intro hc other ho hother
  obtain ⟨there, hne, ht⟩ := exists_slot_of_mem_vacate hslot ho
  exact hne (h.eq_of_carries ht hslot hother (hk hc))

lemma Complete.newTo_of_unmatched (h : cache.Complete .id)
    (hn : (cache.match? record).bind cache.slot? = none) : cache.NewTo .id record :=
  fun symbol key => (h symbol key).newAt_of_unmatched hn

lemma Complete.newTo_of_match (h : cache.Complete .id) (hm : cache.match? record = some position)
    (hslot : cache.slot? position = some older)
    (hsymbol : (RecordKeys.of newer).symbol = (RecordKeys.of record).symbol)
    (hid : (RecordKeys.of newer).id = (RecordKeys.of record).id) :
    (cache.vacate position older).NewTo .id newer :=
  fun symbol key => (h symbol key).newAt_of_match hm hslot hsymbol hid

/-- A record that kept its symbol and its id is new where it stood. -/
lemma Complete.newTo_of_unchanged (h : cache.Complete .id)
    (hslot : cache.slot? position = some older)
    (hsymbol : (RecordKeys.of newer).symbol = (RecordKeys.of older).symbol)
    (hid : (RecordKeys.of newer).id = (RecordKeys.of older).id) :
    (cache.vacate position older).NewTo .id newer := by
  intro symbol key
  refine (h symbol key).newAt_of_kept hslot fun hc => ?_
  exact ⟨hsymbol.symm.trans hc.1, hid.symm.trans hc.2⟩

/-- The records are packed, every entry leads to one of them, and each is found under its id. -/
structure Traceable (cache : KeyedCache α) : Prop where
  packed : cache.Packed
  sound : ∀ kind, cache.Sound kind
  complete : cache.Complete .id

lemma traceable_new (limit : Nat) (placement : Placement) :
    (new limit placement : KeyedCache α).Traceable :=
  ⟨packed_new limit placement, fun _ => sound_of_empty rfl rfl, complete_of_empty rfl⟩

lemma Traceable.exchange (h : cache.Traceable) (hs : cache.slot? position = some older)
    (hk : RecordKeys.of newer = .of older) : (cache.exchange position older newer).Traceable := by
  have hn : (cache.vacate position older).NewTo .id newer :=
    h.complete.newTo_of_unchanged hs (by rw [hk]) (by rw [hk])
  exact ⟨h.packed.exchange hs newer, fun kind => (h.sound kind).exchange hs newer,
    h.complete.exchange hs hn⟩

/-- A modification that leaves the keys of records alone may also end early. -/
lemma Traceable.after_modify (h : cache.Traceable) {symbol key : String} {change : Attempt α Unit}
    (hk : ∀ record, RecordKeys.of (change.runOn record).2 = .of record) :
    (cache.after (.modify symbol key change)).Traceable := by
  have hp := packed_after h.packed (.modify symbol key change)
  have ho := perform_outcome cache (.modify symbol key change)
  have hkeys : ∀ {older newer result}, change.runOn older = (result, newer) →
      RecordKeys.of newer = .of older := by
    intro older newer result hc
    have hold := hk older
    rw [hc] at hold
    exact hold
  generalize cache.answer (.modify symbol key change) = answer,
    cache.after (.modify symbol key change) = after at ho hp
  cases ho with
  | changed hm hc => exact h.exchange hm.slot (hkeys hc)
  | ended hm hc =>
    refine ⟨hp, fun kind symbol key => (h.sound kind symbol key).setSlot hm.slot ?_,
      fun symbol key => (h.complete symbol key).setSlot hm.slot ?_⟩
    · rw [hkeys hc]
      exact id
    · rw [hkeys hc]
      exact id
  | missed => exact h

variable [LawfulIdentified α]

/-- An id goes on to be complete, unless an overflow ends the operation after it gave the id to its
record. -/
lemma CompleteAt.after (h : cache.CompleteAt .id symbol key) (hp : cache.Packed)
    (hn : ¬ cache.EndsGiving .id symbol key operation)
    (hk : cache.LeavesKeys (fun keys => (keys.symbol, keys.id)) operation) :
    (cache.after operation).CompleteAt .id symbol key := by
  have ho := perform_outcome cache operation
  generalize cache.answer operation = answer, cache.after operation = after at ho
  cases ho with
  | @changed operation position older newer hm hc =>
    refine h.exchange hm.slot ?_
    cases operation with
    | append record =>
      have hmerged := keys_of_merged hc
      exact h.newAt_of_match hm.target hm.slot (by rw [hmerged]) (by rw [hmerged])
    | modify name given change =>
      have hg : cache.get? name given = some older :=
        Option.bind_eq_some_iff.mpr ⟨position, hm.target, hm.slot⟩
      have hkept := hk older hg
      rw [show change.runOn older = _ from hc, Prod.mk.injEq] at hkept
      refine h.newAt_of_kept hm.slot fun hnew => ?_
      exact ⟨hkept.1.symm.trans hnew.1, hkept.2.symm.trans hnew.2⟩
  | @ended operation position older newer overflow hm hc =>
    refine h.setSlot hm.slot fun hnew => ?_
    by_contra hold
    exact hn ⟨position, older, newer, ⟨hm, overflow, hc⟩, hold, hnew⟩
  | added hm => exact h.accept hp (h.newAt_of_unmatched hm)
  | missed hm => exact h

lemma CompleteAt.run (h : cache.CompleteAt .id symbol key) (hp : cache.Packed)
    (hn : ¬ cache.Sometime (EndsGiving .id symbol key) operations)
    (hk : cache.Along (LeavesKeys fun keys => (keys.symbol, keys.id)) operations) :
    (cache.run operations).CompleteAt .id symbol key := by
  have hrun := Along.run
    (Q := fun cache : KeyedCache α => cache.Packed ∧ cache.CompleteAt .id symbol key)
    (fun cache operation h hp => ⟨packed_after h.1 operation, h.2.after h.1 hp.1 hp.2⟩) ⟨hp, h⟩
    ((along_not_of_not_sometime hn).and hk)
  exact hrun.2

lemma complete_after (hp : cache.Packed) (h : cache.Complete .id)
    (hc : cache.Completes operation)
    (hk : cache.LeavesKeys (fun keys => (keys.symbol, keys.id)) operation) :
    (cache.after operation).Complete .id :=
  fun symbol key => (h symbol key).after hp (not_endsGiving_of_completes hc) hk

lemma Traceable.after_append (h : cache.Traceable) (hc : cache.Completes (.append record)) :
    (cache.after (.append record)).Traceable :=
  ⟨packed_after h.packed _, fun kind => sound_after h.packed (h.sound kind) hc,
    complete_after h.packed h.complete hc trivial⟩

/-- Every run from an empty cache keeps the records packed, also where overflows end operations. The
entry of a key leads to a record with this symbol and key, and what is found by a key carries it,
unless an earlier operation was ended by an overflow after it took the key from its record. If
modifications leave symbols and ids alone, no two records share a symbol and an id and each one with
an id is found under it, unless an earlier operation was ended after it gave the id to its record.
For an operation that an overflow ends changes the record in its place, and nothing else. -/
theorem run_coherent_unless_ended (limit : Nat) (placement : Placement)
    (operations : List (KeyedOperation α)) :
    let start : KeyedCache α := new limit placement
    let cache := start.run operations
    (cache.live = cache.slots.countP Option.isSome ∧ cache.live = cache.records.length ∧
      cache.live ≤ max limit 1) ∧
    (cache.slots.head? ≠ some none ∧ cache.slots.length ≤ 2 * cache.live + 16 ∧
      (placement = .keep → none ∉ cache.slots)) ∧
    (∀ kind symbol key position, (cache.index kind).get? (symbol, key) = some position →
      (∃ record, cache.slot? position = some record ∧
        (RecordKeys.of record).Carries kind symbol key) ∨
      start.Sometime (EndsTaking kind symbol key) operations) ∧
    (∀ symbol key record, cache.get? symbol key = some record → ∃ kind,
      (RecordKeys.of record).Carries kind symbol key ∨
      start.Sometime (EndsTaking kind symbol key) operations) ∧
    (start.Along (LeavesKeys fun keys => (keys.symbol, keys.id)) operations →
      (cache.records.Pairwise fun a b => ∀ symbol id, (RecordKeys.of a).Carries .id symbol id →
        (RecordKeys.of b).Carries .id symbol id →
        start.Sometime (EndsGiving .id symbol id) operations) ∧
      ∀ record ∈ cache.records, ∀ symbol id, (RecordKeys.of record).Carries .id symbol id →
        cache.get? symbol id = some record ∨
        start.Sometime (EndsGiving .id symbol id) operations) ∧
    ∀ operation overflow, cache.answer operation = .error overflow →
      ∃ position older newer, cache.Breaks operation position older newer ∧
        cache.after operation = cache.setSlot position (some newer) := by
  intro start cache
  have hstart : start.Packed := packed_new limit placement
  have hp : cache.Packed := packed_run hstart operations
  have hset : cache.settings = (max limit 1, placement) := settings_run hstart operations
  obtain ⟨hlimit, hplace⟩ := Prod.mk.inj hset
  have hsound : ∀ {kind symbol key}, ¬ start.Sometime (EndsTaking kind symbol key) operations →
      cache.SoundAt kind symbol key :=
    fun hn => SoundAt.run (soundAt_of_empty rfl rfl) hstart hn
  refine ⟨⟨?_, hp.live, hlimit ▸ hp.room⟩, ⟨hp.front, hp.sparse, hplace ▸ hp.kept⟩,
    fun kind symbol key position hi => ?_, fun symbol key record hg => ?_, fun hk => ?_,
    fun operation overflow ha => breaks_of_answer ha⟩
  · rw [hp.live, records, List.length_filterMap_eq_countP]
    rfl
  · refine or_iff_not_imp_right.mpr fun hn => ?_
    exact (hsound hn).lookup hi
  · obtain ⟨kind, position, hi, hs⟩ := exists_index_of_get? hg
    refine ⟨kind, or_iff_not_imp_right.mpr fun hn => ?_⟩
    obtain ⟨found, hf, hcarries⟩ := (hsound hn).lookup hi
    obtain rfl : found = record := Option.some.inj (hf.symm.trans hs)
    exact hcarries
  · have hcomplete : ∀ {symbol id}, ¬ start.Sometime (EndsGiving .id symbol id) operations →
        cache.CompleteAt .id symbol id :=
      fun hn => CompleteAt.run (completeAt_of_empty rfl) hstart hn hk
    refine ⟨pairwise_records fun p q a b hne ha hb symbol id hida hidb => ?_,
      fun record hm symbol id hid => ?_⟩
    · by_contra hn
      exact hne ((hcomplete hn).eq_of_carries ha hb hida hidb)
    · refine or_iff_not_imp_right.mpr fun hn => ?_
      exact (hcomplete hn).get?_of_mem hm hid

/-- An order that a client names is acknowledged with an id, moves, changes, and stays when the
oldest one leaves. -/
theorem acknowledged_order_run_coherent :
    let order := fun id => Order.new id "BTC/USDT" .buy none none
    let named := fun id => { order id with clientId := some "c" }
    let operations : List (KeyedOperation Order) :=
      [.append (named ""), .append (order "2"), .append (named "1"),
        .modify "BTC/USDT" "c" (modify fun order => { order with status := .closed }),
        .append (order "3")]
    let start : KeyedCache Order := new 2 .moveToNewest
    let cache := start.run operations
    start.Along Completes operations ∧
      start.Along (LeavesKeys fun keys => (keys.symbol, keys.id)) operations ∧
      cache.live ≤ 2 ∧ cache.records.map (·.id) = ["1", "3"] ∧
      ∀ record ∈ cache.records, ∀ id, (RecordKeys.of record).id = some id →
        cache.get? record.symbol id = some record := by
  intro order named operations start cache
  have hc : start.Along Completes operations := by decide +kernel
  have hk : start.Along (LeavesKeys fun keys => (keys.symbol, keys.id)) operations :=
    ⟨trivial, trivial, trivial, fun _ _ => rfl, trivial, trivial⟩
  obtain ⟨⟨-, -, hl⟩, -, -, -, h, -⟩ := run_coherent_unless_ended 2 .moveToNewest operations
  refine ⟨hc, hk, hl, by decide +kernel, fun record hm id hid => ?_⟩
  refine ((h hk).2 record hm record.symbol id ⟨rfl, hid⟩).resolve_right ?_
  rintro ⟨before, operation, later, hops, hends⟩
  exact not_endsGiving_of_completes (Along.at (hops ▸ hc)) hends

/-- An update of a filled order cannot be merged, because what is left of its amount is too large.
The order has its keys by then, and is still found by the client id that it lost; another one, which
the update gives an id, is not found by it, so that the next record with this id is added beside
it. -/
theorem ended_update_leaves_wrong_keys :
    let one : Decimal := ⟨1, 0, by decide, by decide⟩
    let least : Decimal := ⟨-79228162514264337593543950335, 0, by decide, by decide⟩
    let named := fun id clientId => { Order.new id "BTC/USDT" .buy none none with clientId }
    let filled := fun id clientId =>
      { named id clientId with filled := one, trades := [Trade.blank] }
    let update := fun id clientId => { named id clientId with amount := some least }
    let start : KeyedCache Order := new 10 .keep
    let renamed := start.run [.append (filled "A" (some "c1")), .append (update "A" (some "c2"))]
    let doubled := start.run [.append (filled "" (some "c")), .append (update "A" (some "c")),
      .append (named "A" none)]
    renamed.byClientId.get? ("BTC/USDT", "c1") = some 0 ∧
      (renamed.slot? 0).map (·.clientId) = some (some "c2") ∧
      (renamed.get? "BTC/USDT" "c1").map (fun order => (order.id, order.clientId)) =
        some ("A", some "c2") ∧
      doubled.records.map (fun order => (order.symbol, order.id, order.clientId)) =
        [("BTC/USDT", "A", some "c"), ("BTC/USDT", "A", none)] ∧
      ¬ doubled.records.Pairwise fun a b => ¬ RecordKeys.Clash .id (.of a) (.of b) := by
  decide +kernel

end MarketFeed.KeyedCache
