import Mathlib.Data.List.Nodup
import Mathlib.Logic.Function.Basic
import MarketFeed.Proofs.Subscriptions.Records

/-!
# Who stands on record, and since when

Hashes join records and leave them in any order, one of them may stand on many records, and a record
outlives the hash that it was made for. Its hashes keep the order in which they joined, the records
keep the order in which they were made, and a hash is on record exactly if it has been requested and
not been released since.
-/

namespace MarketFeed

namespace SubscriptionRecord

variable {record rest : SubscriptionRecord} {hash : String}

/-- A record has each of its hashes once, and stands for the first of them. -/
structure WellFormed (record : SubscriptionRecord) : Prop where
  nodup : record.hashes.Nodup
  head : record.hashes.head? = some record.messageHash

lemma WellFormed.mem (h : record.WellFormed) : record.messageHash ∈ record.hashes :=
  List.mem_of_head? h.head

lemma hashes_join (record : SubscriptionRecord) (hash : String) :
    (record.join hash).hashes =
      if hash ∈ record.hashes then record.hashes else record.hashes ++ [hash] := by
  unfold join answers
  by_cases hm : hash ∈ record.hashes
  · rw [if_pos (List.contains_iff_mem.mpr hm), if_pos hm]
  · rw [if_neg (by simpa using hm), if_neg hm]

lemma WellFormed.join (h : record.WellFormed) (hash : String) : (record.join hash).WellFormed := by
  have hname : (record.join hash).messageHash = record.messageHash := by
    unfold SubscriptionRecord.join
    split <;> rfl
  constructor
  · rw [hashes_join]
    split
    · exact h.nodup
    · rename_i hn
      exact List.nodup_append.mpr ⟨h.nodup, List.pairwise_singleton _ hash, fun a ha b hb he =>
        hn (List.mem_singleton.mp hb ▸ he ▸ ha)⟩
  · rw [hname, hashes_join]
    split
    · exact h.head
    · rw [List.head?_append, h.head, Option.some_or]

/-- A record without a hash stands for the first of those that are left. -/
def remainder (record : SubscriptionRecord) (hash : String) : SubscriptionRecord :=
  let hashes := record.hashes.filter (· ≠ hash)
  { record with hashes, messageHash := hashes.head?.getD record.messageHash }

lemma WellFormed.detach_eq_remainder (h : record.WellFormed) (hash : String) :
    record.detach hash = record.remainder hash := by
  obtain ⟨others, hhashes⟩ : ∃ others, record.hashes = record.messageHash :: others :=
    List.head?_eq_some_iff.mp h.head
  unfold SubscriptionRecord.detach remainder
  by_cases hname : record.messageHash = hash
  · simp only [hname, ↓reduceIte]
  · -- the record keeps the first of its hashes
    have hfirst : (record.hashes.filter (· ≠ hash)).head? = some record.messageHash := by
      rw [hhashes, List.filter_cons_of_pos (by simpa using hname), List.head?_cons]
    simp only [if_neg hname, hfirst, Option.getD_some]

lemma WellFormed.detach (h : record.WellFormed) (hn : (record.detach hash).hashes ≠ []) :
    (record.detach hash).WellFormed := by
  refine ⟨h.nodup.filter _, ?_⟩
  rw [h.detach_eq_remainder] at hn ⊢
  obtain ⟨first, others, hleft⟩ := List.exists_cons_of_ne_nil hn
  change (record.remainder hash).hashes.head? =
    some ((record.remainder hash).hashes.head?.getD record.messageHash)
  rw [hleft]
  rfl

/-- Nothing changes on a record that the hash is not on. -/
lemma WellFormed.detach_eq (h : record.WellFormed) (hn : hash ∉ record.hashes) :
    record.detach hash = record := by
  have hhashes : record.hashes.filter (· ≠ hash) = record.hashes :=
    List.filter_eq_self.mpr fun other hm => by
      have hne : other ≠ hash := fun he => hn (he ▸ hm)
      simpa using hne
  have hname : record.messageHash ≠ hash := fun he => hn (he ▸ h.mem)
  unfold SubscriptionRecord.detach
  simp only [hhashes, if_neg hname]

lemma WellFormed.detach_isEmpty (h : record.WellFormed) :
    (record.detach hash).hashes = [] ↔ record.hashes = [hash] := by
  have hempty : (record.detach hash).hashes = [] ↔ ∀ other ∈ record.hashes, other = hash := by
    unfold SubscriptionRecord.detach
    simp
  rw [hempty]
  constructor
  · intro hall
    cases hhashes : record.hashes with
    | nil => exact absurd h.mem (by simp [hhashes])
    | cons first others =>
      have hnodup := h.nodup
      rw [hhashes] at hall hnodup
      obtain rfl := hall first (List.mem_cons_self ..)
      obtain rfl : others = [] := List.eq_nil_iff_forall_not_mem.mpr fun other hm =>
        (List.nodup_cons.mp hnodup).1 (hall other (List.mem_cons_of_mem _ hm) ▸ hm)
      rfl
  · rintro heq other hm
    rw [heq] at hm
    exact List.mem_singleton.mp hm

/-- A hash leaves a record that others share, and takes a record along that it has for itself. -/
lemma WellFormed.without?_eq (h : record.WellFormed) (hash : String) :
    record.without? hash =
      if record.hashes = [hash] then none else some (record.detach hash) := by
  unfold without?
  cases ha : record.answers hash with
  | true =>
    rw [if_pos rfl]
    exact if_congr (List.isEmpty_iff.trans h.detach_isEmpty) rfl rfl
  | false =>
    have hn : hash ∉ record.hashes := by simpa [answers] using ha
    have hother : record.hashes ≠ [hash] := fun he => hn (by simp [he])
    rw [if_neg (by simp), if_neg hother, h.detach_eq hn]

/-- Records are in order if their numbers ascend. -/
lemma inOrder_eq_of_perm {records ordered : List SubscriptionRecord} (hp : ordered.Perm records)
    (hs : ordered.Pairwise fun a b => a.sequence < b.sequence) : inOrder records = ordered := by
  have hperm := (inOrder_perm records).trans hp.symm
  have hnodup : ((inOrder records).map (·.sequence)).Nodup := by
    rw [(hperm.map _).nodup_iff]
    exact List.pairwise_map.mpr (hs.imp Nat.ne_of_lt)
  have hascending : (inOrder records).Pairwise fun a b => a.sequence < b.sequence :=
    ((inOrder_ascending records).and (List.pairwise_map.mp hnodup)).imp fun ⟨hle, hne⟩ =>
      Nat.lt_of_le_of_ne hle hne
  exact hperm.eq_of_pairwise (fun a b _ _ hab hba => absurd hab (Nat.lt_asymm hba)) hascending hs

end SubscriptionRecord

namespace Subscriptions

/-- What callers do to the records of a connection. -/
inductive Change where
  | add (request : Request)
  | release (hash : String)
  | clear

/-- The hash is not on record after the change, whatever there was before. -/
def Change.Ends (change : Change) (hash : String) : Prop :=
  change = .release hash ∨ change = .clear

def change (subscriptions : Subscriptions) : Change → Subscriptions
  | .add request => (subscriptions.add request).2
  | .release hash => (subscriptions.removeHash hash).2
  | .clear => subscriptions.clear

/-- The records of a connection with the given room after some changes. -/
def changed (capacity : Nat) (changes : List Change) : Subscriptions :=
  changes.foldl change (new capacity)

lemma changed_concat (capacity : Nat) (changes : List Change) (last : Change) :
    changed capacity (changes ++ [last]) = (changed capacity changes).change last :=
  List.foldl_concat ..

variable {subscriptions : Subscriptions} {capacity place : Nat} {changes : List Change}
  {last : Change} {hash key : String} {request : Request} {record : SubscriptionRecord}

/-! What a request adds. -/

/-- Where an entry comes from that there is after a request. -/
inductive Added (subscriptions : Subscriptions) (request : Request) :
    String × SubscriptionRecord → Prop
  | kept {entry : String × SubscriptionRecord} (hm : entry ∈ subscriptions.records.entries) :
      Added subscriptions request entry
  | joined {record : SubscriptionRecord} (hm : (request.key, record) ∈ subscriptions.records.entries)
      (hr : (subscriptions.add request).1 = .ok false) :
      Added subscriptions request (request.key, record.join request.messageHash)
  | made (hk : request.key ∉ subscriptions.records.keys)
      (hr : (subscriptions.add request).1 = .ok true) :
      Added subscriptions request (request.key, subscriptions.newRecord request)

lemma added {entry : String × SubscriptionRecord}
    (h : entry ∈ (subscriptions.add request).2.records.entries) :
    subscriptions.Added request entry := by
  have hadmission := subscriptions.admission request
  generalize hadd : subscriptions.add request = added at hadmission h
  obtain ⟨result, after⟩ := added
  dsimp only at hadmission h
  cases hadmission with
  | joined he =>
    rcases mem_joinAt he request.messageHash entry h with rfl | hm
    · exact .joined (by simp [he]) (congrArg Prod.fst hadd)
    · exact .kept hm
  | refused => exact .kept h
  | added hk =>
    rcases List.mem_append.mp h with hm | hm
    · exact .kept hm
    · rw [List.mem_singleton.mp hm]
      exact .made hk (congrArg Prod.fst hadd)

def AllWellFormed (subscriptions : Subscriptions) : Prop :=
  ∀ entry ∈ subscriptions.records.entries, entry.2.WellFormed

lemma AllWellFormed.change (h : subscriptions.AllWellFormed) (change : Change) :
    (subscriptions.change change).AllWellFormed := by
  cases change with
  | add request =>
    intro entry hm
    cases added hm with
    | kept hold => exact h entry hold
    | joined hold => exact (h _ hold).join _
    | made => exact ⟨List.pairwise_singleton _ _, rfl⟩
  | release hash =>
    rintro ⟨key, rest⟩ hm
    obtain ⟨before, hbefore, hrest⟩ := mem_removeHash.mp hm
    have hwell := h _ hbefore
    rw [hwell.without?_eq] at hrest
    split at hrest
    · exact absurd hrest (by simp)
    · rename_i hshared
      obtain rfl := Option.some.inj hrest
      exact hwell.detach fun he => hshared (hwell.detach_isEmpty.mp he)
  | clear => exact fun _ hm => absurd hm List.not_mem_nil

lemma allWellFormed_changed (capacity : Nat) (changes : List Change) :
    (changed capacity changes).AllWellFormed := by
  induction changes using List.reverseRecOn with
  | nil => exact fun _ hm => absurd hm List.not_mem_nil
  | append_singleton changes last ih =>
    rw [changed_concat]
    exact ih.change last

lemma numbered_changed (capacity : Nat) (changes : List Change) :
    (changed capacity changes).Numbered := by
  induction changes using List.reverseRecOn with
  | nil => exact numbered_new capacity
  | append_singleton changes last ih =>
    rw [changed_concat]
    cases last with
    | add request => exact ih.add request
    | release hash => exact ih.removeHash hash
    | clear => exact ⟨List.nodup_nil, List.nodup_nil, fun _ hm => absurd hm List.not_mem_nil⟩

/-- There is never more than there is room for. -/
lemma count_changed (capacity : Nat) (changes : List Change) :
    (changed capacity changes).capacity = capacity ∧ (changed capacity changes).count ≤ capacity := by
  induction changes using List.reverseRecOn with
  | nil => exact ⟨rfl, Nat.zero_le _⟩
  | append_singleton changes last ih =>
    obtain ⟨hcapacity, hcount⟩ := ih
    rw [changed_concat]
    generalize changed capacity changes = subscriptions at hcapacity hcount
    cases last with
    | add request =>
      change (subscriptions.add request).2.capacity = _ ∧ (subscriptions.add request).2.count ≤ _
      have hadmission := subscriptions.admission request
      generalize subscriptions.add request = added at hadmission
      obtain ⟨result, after⟩ := added
      dsimp only at hadmission ⊢
      cases hadmission with
      | joined he =>
        refine ⟨hcapacity, le_of_eq_of_le ?_ hcount⟩
        simp [count, Table.size, joinAt, he]
      | refused => exact ⟨hcapacity, hcount⟩
      | added _ hroom =>
        refine ⟨hcapacity, ?_⟩
        rw [hcapacity] at hroom
        simpa [count, Table.size, extend, Nat.succ_le_iff] using hroom
    | release hash =>
      have hsub := (removeHash_sublist Prod.fst (fun _ _ _ _ _ => rfl) subscriptions hash).length_le
      rw [List.length_map, List.length_map] at hsub
      exact ⟨hcapacity, Nat.le_trans hsub hcount⟩
    | clear => exact ⟨hcapacity, Nat.zero_le _⟩

/-! Hashes on record. -/

lemma containsHash_iff : subscriptions.containsHash hash = true ↔
    ∃ entry ∈ subscriptions.records.entries, hash ∈ entry.2.hashes := by
  rw [containsHash, Table.values, List.any_map, List.any_eq_true]
  exact exists_congr fun entry => and_congr_right fun _ => List.contains_iff_mem

lemma containsHash_add (subscriptions : Subscriptions) (request : Request) (hash : String) :
    (subscriptions.add request).2.containsHash hash = true ↔
      subscriptions.containsHash hash = true ∨
        (∃ isNew, (subscriptions.add request).1 = .ok isNew) ∧ request.messageHash = hash := by
  have hadmission := subscriptions.admission request
  generalize subscriptions.add request = added at hadmission
  obtain ⟨result, after⟩ := added
  rw [containsHash_iff, containsHash_iff]
  dsimp only at hadmission ⊢
  cases hadmission with
  | @joined front back record he =>
    have hjoin : hash ∈ (record.join request.messageHash).hashes ↔
        hash ∈ record.hashes ∨ hash = request.messageHash :=
      (record.join_frame request.messageHash).2.2.2.2 hash
    simp only [joinAt, he, List.mem_append, List.mem_cons, or_and_right, exists_or,
      exists_eq_left, hjoin, Except.ok.injEq, exists_eq', true_and, eq_comm (a := hash)]
    rw [or_assoc, or_assoc, or_assoc, or_comm (a := request.messageHash = hash)]
  | refused => simp
  | added =>
    simp only [extend, newRecord, List.mem_append, List.mem_singleton, or_and_right, exists_or,
      exists_eq_left, Except.ok.injEq, exists_eq', true_and, eq_comm (a := hash)]

lemma containsHash_removeHash (subscriptions : Subscriptions) (hash other : String) :
    (subscriptions.removeHash hash).2.containsHash other = true ↔
      other ≠ hash ∧ subscriptions.containsHash other = true := by
  rw [containsHash_iff, containsHash_iff]
  constructor
  · rintro ⟨⟨key, rest⟩, hm, hhash⟩
    obtain ⟨before, hbefore, hrest⟩ := mem_removeHash.mp hm
    obtain ⟨hon, hne⟩ := ((SubscriptionRecord.without?_frame hrest).2.2.2.2 other).mp hhash
    exact ⟨hne, (key, before), hbefore, hon⟩
  · rintro ⟨hne, ⟨key, before⟩, hbefore, hon⟩
    cases hrest : before.without? hash with
    | none => exact absurd (SubscriptionRecord.without?_eq_none hrest other hon) hne
    | some rest =>
      exact ⟨(key, rest), mem_removeHash.mpr ⟨before, hbefore, hrest⟩,
        ((SubscriptionRecord.without?_frame hrest).2.2.2.2 other).mpr ⟨hon, hne⟩⟩

/-! The history of a run. -/

/-- The request at this place of the run is granted, and nothing ends what it is for after that. -/
structure Stands (capacity : Nat) (changes : List Change) (place : Nat) (request : Request) :
    Prop where
  made : changes[place]? = some (.add request)
  granted : ∃ isNew, ((changed capacity (changes.take place)).add request).1 = .ok isNew
  since : ∀ later ∈ changes.drop (place + 1), ¬later.Ends request.messageHash

/-- The hash joins the record of the key at this place of the run, and stays. -/
structure Joins (capacity : Nat) (changes : List Change) (key hash : String) (place : Nat) :
    Prop where
  stands : ∃ request, Stands capacity changes place request ∧ request.key = key ∧
    request.messageHash = hash
  apart : ∀ record, (key, record) ∈ (changed capacity (changes.take place)).records.entries →
    hash ∉ record.hashes

/-- The record is made at this place of the run. -/
def IsMade (capacity : Nat) (changes : List Change) (record : SubscriptionRecord) (place : Nat) :
    Prop :=
  ∃ request, changes[place]? = some (.add request) ∧
    ((changed capacity (changes.take place)).add request).1 = .ok true ∧
    ((changed capacity (changes.take place)).newRecord request).Continues record

lemma Stands.lt (h : Stands capacity changes place request) : place < changes.length :=
  (List.getElem?_eq_some_iff.mp h.made).1

lemma Joins.lt (h : Joins capacity changes key hash place) : place < changes.length := by
  obtain ⟨request, hstands, -⟩ := h.stands
  exact hstands.lt

lemma Stands.concat (h : Stands capacity changes place request)
    (hl : ¬last.Ends request.messageHash) : Stands capacity (changes ++ [last]) place request := by
  have hlt := h.lt
  refine ⟨(List.getElem?_append_left hlt).trans h.made, ?_, fun later hm => ?_⟩
  · rw [List.take_append_of_le_length (Nat.le_of_lt hlt)]
    exact h.granted
  · rw [List.drop_append_of_le_length hlt] at hm
    rcases List.mem_append.mp hm with hm | hm
    · exact h.since later hm
    · exact List.mem_singleton.mp hm ▸ hl

lemma stands_last {isNew : Bool} (h : ((changed capacity changes).add request).1 = .ok isNew) :
    Stands capacity (changes ++ [.add request]) changes.length request := by
  refine ⟨List.getElem?_concat_length, ⟨isNew, ?_⟩, fun later hm => ?_⟩
  · rwa [List.take_left]
  · rw [List.drop_of_length_le (by simp)] at hm
    exact absurd hm List.not_mem_nil

lemma Stands.of_concat (h : Stands capacity (changes ++ [last]) place request) :
    (Stands capacity changes place request ∧ ¬last.Ends request.messageHash) ∨
      last = .add request ∧ ∃ isNew, ((changed capacity changes).add request).1 = .ok isNew := by
  have hlt := h.lt
  have hmade := h.made
  rw [List.length_append, List.length_singleton, Nat.lt_succ_iff_lt_or_eq] at hlt
  rcases hlt with hlt | rfl
  · rw [List.getElem?_append_left hlt] at hmade
    have hsince := h.since
    rw [List.drop_append_of_le_length hlt] at hsince
    refine .inl ⟨⟨hmade, ?_, fun later hm => hsince later (List.mem_append_left _ hm)⟩,
      hsince last (by simp)⟩
    have hgranted := h.granted
    rwa [List.take_append_of_le_length (Nat.le_of_lt hlt)] at hgranted
  · rw [List.getElem?_concat_length, Option.some.injEq] at hmade
    have hgranted := h.granted
    rw [List.take_left] at hgranted
    exact .inr ⟨hmade, hgranted⟩

lemma Joins.concat (h : Joins capacity changes key hash place) (hl : ¬last.Ends hash) :
    Joins capacity (changes ++ [last]) key hash place := by
  have hlt := h.lt
  obtain ⟨request, hstands, hkey, rfl⟩ := h.stands
  refine ⟨⟨request, hstands.concat hl, hkey, rfl⟩, ?_⟩
  rw [List.take_append_of_le_length (Nat.le_of_lt hlt)]
  exact h.apart

lemma IsMade.concat (h : IsMade capacity changes record place) (last : Change) :
    IsMade capacity (changes ++ [last]) record place := by
  obtain ⟨request, hmade, hnew⟩ := h
  have hlt := (List.getElem?_eq_some_iff.mp hmade).1
  refine ⟨request, (List.getElem?_append_left hlt).trans hmade, ?_⟩
  rwa [List.take_append_of_le_length (Nat.le_of_lt hlt)]

/-- A hash is on record if it has been requested and not been released since. -/
lemma containsHash_changed (capacity : Nat) (changes : List Change) (hash : String) :
    (changed capacity changes).containsHash hash = true ↔
      ∃ place request, Stands capacity changes place request ∧ request.messageHash = hash := by
  induction changes using List.reverseRecOn with
  | nil =>
    refine ⟨fun h => absurd h (by simp [changed, new, containsHash, Table.values, Table.empty]), ?_⟩
    rintro ⟨place, request, hstands, -⟩
    exact absurd hstands.lt (Nat.not_lt_zero place)
  | append_singleton changes last ih =>
    have hconcat : (∃ place request, Stands capacity (changes ++ [last]) place request ∧
          request.messageHash = hash) ↔
        ((changed capacity changes).containsHash hash = true ∧ ¬last.Ends hash) ∨
        ∃ request, last = .add request ∧
          (∃ isNew, ((changed capacity changes).add request).1 = .ok isNew) ∧
          request.messageHash = hash := by
      rw [ih]
      constructor
      · rintro ⟨place, request, hstands, rfl⟩
        rcases hstands.of_concat with ⟨hbefore, hlast⟩ | ⟨rfl, hgranted⟩
        · exact .inl ⟨⟨place, request, hbefore, rfl⟩, hlast⟩
        · exact .inr ⟨request, rfl, hgranted, rfl⟩
      · rintro (⟨⟨place, request, hstands, rfl⟩, hlast⟩ | ⟨request, rfl, ⟨isNew, hgranted⟩, rfl⟩)
        · exact ⟨place, request, hstands.concat hlast, rfl⟩
        · exact ⟨changes.length, request, stands_last hgranted, rfl⟩
    rw [changed_concat, hconcat]
    cases last with
    | add request => simp [change, containsHash_add, Change.Ends]
    | release other =>
      have hends : (Change.release other).Ends hash ↔ hash = other := by
        simp [Change.Ends, eq_comm]
      rw [hends, change, containsHash_removeHash, and_comm]
      simp
    | clear => simp [change, clear, containsHash, Change.Ends, Table.values, Table.empty]

/-- The hashes stand in the order in which they joined the record of the key. -/
def InOrderJoined (capacity : Nat) (changes : List Change) (key : String) (hashes : List String) :
    Prop :=
  ∃ since : String → Nat, (∀ hash ∈ hashes, Joins capacity changes key hash (since hash)) ∧
    hashes.Pairwise fun earlier later => since earlier < since later

/-- The records stand in the order in which they were made. -/
def InOrderMade (capacity : Nat) (changes : List Change) (records : List SubscriptionRecord) :
    Prop :=
  ∃ since : SubscriptionRecord → Nat,
    (∀ record ∈ records, IsMade capacity changes record (since record)) ∧
      records.Pairwise fun earlier later => since earlier < since later

lemma joins_last {isNew : Bool} (h : ((changed capacity changes).add request).1 = .ok isNew)
    (hn : ∀ record, (request.key, record) ∈ (changed capacity changes).records.entries →
      request.messageHash ∉ record.hashes) :
    Joins capacity (changes ++ [.add request]) request.key request.messageHash changes.length := by
  refine ⟨⟨request, stands_last h, rfl, rfl⟩, ?_⟩
  rwa [List.take_left]

/-- Hashes that stay keep their order. -/
lemma InOrderJoined.concat {hashes rest : List String}
    (h : InOrderJoined capacity changes key hashes) (hr : rest.Sublist hashes)
    (hl : ∀ hash ∈ rest, ¬last.Ends hash) :
    InOrderJoined capacity (changes ++ [last]) key rest := by
  obtain ⟨since, hjoins, hascending⟩ := h
  exact ⟨since, fun hash hm => (hjoins hash (hr.subset hm)).concat (hl hash hm),
    hascending.sublist hr⟩

/-- A hash that joins comes last. -/
lemma InOrderJoined.join {hashes : List String} (h : InOrderJoined capacity changes key hashes)
    (hn : hash ∉ hashes) (hl : ∀ hash, ¬last.Ends hash)
    (hj : Joins capacity (changes ++ [last]) key hash changes.length) :
    InOrderJoined capacity (changes ++ [last]) key (hashes ++ [hash]) := by
  obtain ⟨since, hjoins, hascending⟩ := h
  have hlast : Function.update since hash changes.length hash = changes.length :=
    Function.update_self ..
  have hsince : ∀ other ∈ hashes, Function.update since hash changes.length other = since other := by
    rintro other hm
    exact Function.update_of_ne (fun he => hn (by rwa [← he])) ..
  refine ⟨Function.update since hash changes.length, ?_, ?_⟩
  · intro other hm
    rcases List.mem_append.mp hm with hm | hm
    · rw [hsince other hm]
      exact (hjoins other hm).concat (hl other)
    · rw [List.mem_singleton.mp hm, hlast]
      exact hj
  · refine List.pairwise_append.mpr ⟨hascending.imp_of_mem fun ha hb hlt => ?_,
      List.pairwise_singleton _ _, fun earlier he later hl => ?_⟩
    · rwa [hsince _ ha, hsince _ hb]
    · rw [hsince _ he, List.mem_singleton.mp hl, hlast]
      exact (hjoins earlier he).lt

/-- The hashes of a record stand in the order in which they joined it. -/
lemma inOrderJoined_changed (capacity : Nat) (changes : List Change) :
    ∀ entry ∈ (changed capacity changes).records.entries,
      InOrderJoined capacity changes entry.1 entry.2.hashes := by
  induction changes using List.reverseRecOn with
  | nil => exact fun _ hm => absurd hm List.not_mem_nil
  | append_singleton changes last ih =>
    rintro ⟨key, after⟩ hm
    rw [changed_concat] at hm
    cases last with
    | add request =>
      have hends : ∀ hash, ¬(Change.add request).Ends hash := by simp [Change.Ends]
      cases added hm with
      | kept hold => exact (ih _ hold).concat (List.Sublist.refl _) fun hash _ => hends hash
      | @joined record hold hr =>
        dsimp only
        rw [SubscriptionRecord.hashes_join]
        split
        · exact (ih _ hold).concat (List.Sublist.refl _) fun hash _ => hends hash
        · rename_i hn
          -- there is no other record of the key that the hash could be on
          refine (ih _ hold).join hn hends (joins_last hr fun other hother hon => hn ?_)
          have hkeys := (numbered_changed capacity changes).keys
          have heq := List.inj_on_of_nodup_map hkeys hother hold rfl
          rwa [(Prod.mk.inj heq).2] at hon
      | made hk hr =>
        refine ⟨fun _ => changes.length, fun hash hhash => ?_, List.pairwise_singleton _ _⟩
        rw [List.mem_singleton.mp hhash]
        exact joins_last hr fun record hrecord => absurd (List.mem_map_of_mem hrecord) hk
    | release hash =>
      obtain ⟨before, hbefore, hrest⟩ := mem_removeHash.mp hm
      have hwell := allWellFormed_changed capacity changes _ hbefore
      rw [hwell.without?_eq] at hrest
      split at hrest
      · exact absurd hrest (by simp)
      · obtain rfl := Option.some.inj hrest
        refine (ih _ hbefore).concat List.filter_sublist fun other hother => ?_
        have hne : other ≠ hash := by simpa using (List.mem_filter.mp hother).2
        simpa [Change.Ends, eq_comm] using hne
    | clear => exact absurd hm List.not_mem_nil

/-- Every record has been made at some place of the run. -/
lemma exists_isMade (capacity : Nat) (changes : List Change) :
    ∀ entry ∈ (changed capacity changes).records.entries,
      ∃ place, IsMade capacity changes entry.2 place := by
  induction changes using List.reverseRecOn with
  | nil => exact fun _ hm => absurd hm List.not_mem_nil
  | append_singleton changes last ih =>
    have hcontinues : ∀ {before after}, before ∈ (changed capacity changes).records.entries →
        before.2.Continues after → ∃ place, IsMade capacity (changes ++ [last]) after place := by
      intro before after hbefore hafter
      obtain ⟨place, hmade⟩ := ih before hbefore
      obtain ⟨request, hrequest, hnew, hsame⟩ := hmade.concat last
      exact ⟨place, request, hrequest, hnew, hsame.trans hafter⟩
    rintro ⟨key, after⟩ hm
    rw [changed_concat] at hm
    cases last with
    | add request =>
      cases added hm with
      | kept hold => exact hcontinues hold (.refl _)
      | joined hold => exact hcontinues hold (SubscriptionRecord.continues_join _ _)
      | made _ hr =>
        refine ⟨changes.length, request, List.getElem?_concat_length, ?_⟩
        rw [List.take_left]
        exact ⟨hr, .refl _⟩
    | release hash =>
      obtain ⟨before, hbefore, hrest⟩ := mem_removeHash.mp hm
      exact hcontinues hbefore (SubscriptionRecord.continues_without? hrest)
    | clear => exact absurd hm List.not_mem_nil

/-- Numbers are never given back. -/
lemma nextSequence_le_change (subscriptions : Subscriptions) (change : Change) :
    subscriptions.nextSequence ≤ (subscriptions.change change).nextSequence := by
  cases change with
  | add request =>
    change _ ≤ (subscriptions.add request).2.nextSequence
    have hadmission := subscriptions.admission request
    generalize subscriptions.add request = added at hadmission
    obtain ⟨result, after⟩ := added
    dsimp only at hadmission ⊢
    cases hadmission with
    | joined => exact Nat.le_refl _
    | refused => exact Nat.le_refl _
    | added => exact Nat.le_succ _
  | release => exact Nat.le_refl _
  | clear => exact Nat.le_refl _

lemma nextSequence_mono {early late : Nat} (h : early ≤ late) (capacity : Nat)
    (changes : List Change) : (changed capacity (changes.take early)).nextSequence ≤
      (changed capacity (changes.take late)).nextSequence := by
  induction h with
  | refl => exact Nat.le_refl _
  | @step late _ ih =>
    refine Nat.le_trans ih ?_
    rw [List.take_add_one]
    cases hlast : changes[late]? with
    | none => simp
    | some last =>
      rw [Option.toList_some, changed_concat]
      exact nextSequence_le_change _ last

/-- The records in order are those that were made first. -/
lemma inOrderMade_changed (capacity : Nat) (changes : List Change) :
    InOrderMade capacity changes (changed capacity changes).ordered := by
  have hexists : ∀ record ∈ (changed capacity changes).ordered,
      ∃ place, IsMade capacity changes record place := by
    intro record hm
    obtain ⟨entry, hentry, rfl⟩ := List.mem_map.mp (mem_ordered.mp hm)
    exact exists_isMade capacity changes entry hentry
  choose! since hsince using hexists
  refine ⟨since, hsince, (numbered_changed capacity changes).ordered_ascending.imp_of_mem ?_⟩
  intro earlier later he hl hlt
  obtain ⟨_, -, -, hearlier⟩ := hsince earlier he
  obtain ⟨_, -, -, hlater⟩ := hsince later hl
  -- a record made before another one has the lower number
  by_contra hge
  have hnumbers := nextSequence_mono (Nat.le_of_not_lt hge) capacity changes
  rw [hearlier.sequence, hlater.sequence] at hlt
  exact Nat.lt_irrefl _ (Nat.lt_of_lt_of_le hlt hnumbers)

/-! A hash leaves. -/

lemma AllWellFormed.entries_removeHash (h : subscriptions.AllWellFormed) (hash : String) :
    (subscriptions.removeHash hash).2.records.entries =
      (subscriptions.records.entries.filter fun entry => entry.2.hashes ≠ [hash]).map
        fun entry => (entry.1, entry.2.remainder hash) := by
  rw [Subscriptions.entries_removeHash, ← List.filterMap_eq_map, List.filterMap_filter]
  refine List.filterMap_congr fun entry hm => ?_
  rw [(h entry hm).without?_eq, (h entry hm).detach_eq_remainder]
  by_cases hown : entry.2.hashes = [hash] <;> simp [hown]

/-- The records that a hash has for itself are removed, in order. -/
lemma AllWellFormed.removed (h : subscriptions.AllWellFormed) (hn : subscriptions.Numbered)
    (hash : String) : (subscriptions.removeHash hash).1 =
      (subscriptions.ordered.filter fun record => record.hashes = [hash]).map
        (·.remainder hash) := by
  have hsame := emptied_eq hash subscriptions.records.entries
  apply (congrArg SubscriptionRecord.inOrder hsame).trans
  apply SubscriptionRecord.inOrder_eq_of_perm
  · refine (((SubscriptionRecord.inOrder_perm _).filter _).map _).trans (.of_eq ?_)
    rw [Table.values, List.filter_map, List.map_map, List.map_map, List.filter_congr
      fun entry hm => ?_]
    · exact List.map_congr_left fun entry hm =>
        ((h entry (List.mem_of_mem_filter hm)).detach_eq_remainder hash).symm
    · rw [(h entry hm).without?_eq]
      by_cases hown : entry.2.hashes = [hash] <;> simp [hown]
  · exact List.pairwise_map.mpr (hn.ordered_ascending.filter _)

/-- What answers another hash answers it still. -/
lemma AllWellFormed.answering (h : subscriptions.AllWellFormed) {other : String}
    (hne : other ≠ hash) :
    ((subscriptions.removeHash hash).2.records.entries.filter fun entry => entry.2.answers other) =
      (subscriptions.records.entries.filter fun entry => entry.2.answers other).map
        fun entry => (entry.1, entry.2.remainder hash) := by
  rw [h.entries_removeHash, List.filter_map, List.filter_filter]
  congr 1
  refine List.filter_congr fun entry _ => ?_
  have hanswers : (entry.2.remainder hash).answers other = entry.2.answers other := by
    simp [SubscriptionRecord.remainder, SubscriptionRecord.answers, hne]
  change ((entry.2.remainder hash).answers other && _) = _
  rw [hanswers]
  by_cases hown : entry.2.hashes = [hash] <;> simp [hown, SubscriptionRecord.answers, hne]

/-- The records that a hash has for itself go with it, the other ones stay without it, and those
that answer another hash go on to do so. -/
structure Parting (subscriptions : Subscriptions) (hash : String) : Prop where
  removed : (subscriptions.removeHash hash).1 =
    (subscriptions.ordered.filter fun record => record.hashes = [hash]).map (·.remainder hash)
  kept : (subscriptions.removeHash hash).2.records.entries =
    (subscriptions.records.entries.filter fun entry => entry.2.hashes ≠ [hash]).map
      fun entry => (entry.1, entry.2.remainder hash)
  answering : ∀ other ≠ hash,
    ((subscriptions.removeHash hash).2.records.entries.filter fun entry => entry.2.answers other) =
      (subscriptions.records.entries.filter fun entry => entry.2.answers other).map
        fun entry => (entry.1, entry.2.remainder hash)
  containsHash : ∀ other ≠ hash,
    (subscriptions.removeHash hash).2.containsHash other = subscriptions.containsHash other
  isPrivate : ∀ other ≠ hash,
    (subscriptions.removeHash hash).2.isPrivate other = subscriptions.isPrivate other

lemma AllWellFormed.parting (h : subscriptions.AllWellFormed) (hn : subscriptions.Numbered)
    (hash : String) : subscriptions.Parting hash := by
  refine ⟨h.removed hn hash, h.entries_removeHash hash, fun other => h.answering,
    fun other hne => ?_, fun other hne => ?_⟩
  · rw [Bool.eq_iff_iff, containsHash_removeHash]
    exact and_iff_right hne
  · have hprivate : ∀ subscriptions : Subscriptions, subscriptions.isPrivate other =
        (subscriptions.records.entries.filter fun entry => entry.2.answers other).any
          (·.2.isPrivate) := by
      intro subscriptions
      rw [Subscriptions.isPrivate, Table.values, List.any_map, List.any_filter]
      exact congrArg _ (funext fun entry => Bool.and_comm ..)
    rw [hprivate, hprivate, h.answering hne, List.any_map]
    rfl

/-- How the records stand after some changes. A record has at least the hash that it stands for, and
has each of its hashes once, in the order in which they joined; records are listed in the order in
which they were made, no two under one number, and there are not more of them than there is room
for. A hash is on record exactly if it has been requested and neither been released nor cleared
since. -/
structure Orderly (capacity : Nat) (changes : List Change) : Prop where
  wellFormed : ∀ record ∈ (changed capacity changes).ordered, record.WellFormed
  joined : ∀ entry ∈ (changed capacity changes).records.entries,
    InOrderJoined capacity changes entry.1 entry.2.hashes
  numbers : ((changed capacity changes).ordered.map (·.sequence)).Nodup
  all : (changed capacity changes).ordered.Perm (changed capacity changes).records.values
  made : InOrderMade capacity changes (changed capacity changes).ordered
  room : (changed capacity changes).count ≤ capacity
  standing : ∀ hash, (changed capacity changes).containsHash hash = true ↔
    ∃ place request, Stands capacity changes place request ∧ request.messageHash = hash
  parting : ∀ hash, (changed capacity changes).Parting hash

/-- However hashes come and go, the records stay in order, and a hash that leaves takes nothing
along that another one is on. -/
theorem orderly_changed (capacity : Nat) (changes : List Change) : Orderly capacity changes where
  wellFormed record hm := by
    obtain ⟨entry, hentry, rfl⟩ := List.mem_map.mp (mem_ordered.mp hm)
    exact allWellFormed_changed capacity changes entry hentry
  joined := inOrderJoined_changed capacity changes
  numbers := List.pairwise_map.mpr
    ((numbered_changed capacity changes).ordered_ascending.imp Nat.ne_of_lt)
  all := SubscriptionRecord.inOrder_perm _
  made := inOrderMade_changed capacity changes
  room := (count_changed capacity changes).2
  standing := containsHash_changed capacity changes
  parting := (allWellFormed_changed capacity changes).parting (numbered_changed capacity changes)

end Subscriptions

end MarketFeed
