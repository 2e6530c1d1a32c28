import Mathlib.Data.List.Induction
import Mathlib.Data.List.Nodup
import Mathlib.Data.List.Perm.Subperm
import Mathlib.Tactic.Lemma
import MarketFeed.Connection.Request
import MarketFeed.Connection.Subscriptions

/-!
# Records of subscriptions

The records stand in a table under their keys. A request either joins the record of its key or comes
last; a hash that leaves takes the records along that have no other one. The numbers of the records
are never used twice, so that they tell the records of a connection apart.
-/

namespace MarketFeed

namespace SubscriptionRecord

/-- What is left of a record without a hash. -/
def without? (hash : String) (record : SubscriptionRecord) : Option SubscriptionRecord :=
  if record.answers hash then
    if (record.detach hash).hashes.isEmpty then none else some (record.detach hash)
  else some record

/-- A record takes the number of its place. -/
def place (sequence : Nat) (record : SubscriptionRecord) : SubscriptionRecord :=
  { record with sequence }

variable {record rest : SubscriptionRecord} {hash : String}

lemma without?_of_answers (h : record.answers hash = true) (hr : record.without? hash = some rest) :
    rest = record.detach hash ∧ rest.hashes ≠ [] := by
  rw [without?, if_pos h] at hr
  split at hr
  · exact absurd hr (by simp)
  · rename_i hne
    obtain rfl := Option.some.inj hr
    exact ⟨rfl, fun he => hne (List.isEmpty_iff.mpr he)⟩

lemma without?_of_not_answers (h : record.answers hash = false) :
    record.without? hash = some record := by
  rw [without?, if_neg (by simp [h])]

/-- Only the hashes of a record, and with them its name, change when one leaves. -/
lemma without?_frame (h : record.without? hash = some rest) :
    rest.request = record.request ∧ rest.isPrivate = record.isPrivate ∧
      rest.sequence = record.sequence ∧ rest.subscriptionKey = record.subscriptionKey ∧
      ∀ other, other ∈ rest.hashes ↔ other ∈ record.hashes ∧ other ≠ hash := by
  cases ha : record.answers hash with
  | true =>
    obtain ⟨rfl, -⟩ := without?_of_answers ha h
    exact ⟨rfl, rfl, rfl, rfl, fun other => by simp [detach]⟩
  | false =>
    rw [without?_of_not_answers ha] at h
    obtain rfl := Option.some.inj h
    refine ⟨rfl, rfl, rfl, rfl, fun other => ⟨fun hm => ⟨hm, ?_⟩, And.left⟩⟩
    rintro rfl
    exact absurd (List.contains_iff_mem.mpr hm) (by simpa [answers] using ha)

lemma without?_eq_none (h : record.without? hash = none) : ∀ other ∈ record.hashes, other = hash := by
  intro other hm
  by_contra hne
  have hleft : other ∈ (record.detach hash).hashes := by simp [detach, hm, hne]
  rw [without?] at h
  split at h
  · split at h
    · rename_i hempty
      rw [List.isEmpty_iff.mp hempty] at hleft
      exact absurd hleft List.not_mem_nil
    · exact absurd h (by simp)
  · exact absurd h (by simp)

lemma isNone_without? (record : SubscriptionRecord) (hash : String) :
    (record.without? hash).isNone =
      (record.answers hash && (record.detach hash).hashes.isEmpty) := by
  unfold without?
  cases record.answers hash with
  | false => rfl
  | true => cases (record.detach hash).hashes.isEmpty <;> rfl

lemma join_frame (record : SubscriptionRecord) (hash : String) :
    (record.join hash).request = record.request ∧ (record.join hash).isPrivate = record.isPrivate ∧
      (record.join hash).sequence = record.sequence ∧ (record.join hash).key = record.key ∧
      ∀ other, other ∈ (record.join hash).hashes ↔ other ∈ record.hashes ∨ other = hash := by
  unfold join
  split
  · rename_i ha
    refine ⟨rfl, rfl, rfl, rfl, fun other => ⟨.inl, ?_⟩⟩
    rintro (hm | rfl)
    · exact hm
    · exact List.contains_iff_mem.mp ha
  · exact ⟨rfl, rfl, rfl, rfl, fun other => by simp⟩

lemma answers_join (record : SubscriptionRecord) (hash : String) :
    (record.join hash).answers hash = true :=
  List.contains_iff_mem.mpr ((record.join_frame hash).2.2.2.2 hash |>.mpr (.inr rfl))

/-- The one record comes from the other: it may have other hashes, and with them another name. -/
structure Continues (before after : SubscriptionRecord) : Prop where
  request : after.request = before.request
  isPrivate : after.isPrivate = before.isPrivate
  sequence : after.sequence = before.sequence

lemma Continues.refl (record : SubscriptionRecord) : record.Continues record := ⟨rfl, rfl, rfl⟩

lemma Continues.trans {first second third : SubscriptionRecord} (h : first.Continues second)
    (h' : second.Continues third) : first.Continues third :=
  ⟨h'.request.trans h.request, h'.isPrivate.trans h.isPrivate, h'.sequence.trans h.sequence⟩

lemma continues_join (record : SubscriptionRecord) (hash : String) :
    record.Continues (record.join hash) := by
  obtain ⟨hrequest, hprivate, hsequence, -⟩ := record.join_frame hash
  exact ⟨hrequest, hprivate, hsequence⟩

lemma continues_without? (h : record.without? hash = some rest) : record.Continues rest := by
  obtain ⟨hrequest, hprivate, hsequence, -⟩ := without?_frame h
  exact ⟨hrequest, hprivate, hsequence⟩

/-- The order of the records is that of their numbers. -/
lemma inOrder_ascending (records : List SubscriptionRecord) :
    (inOrder records).Pairwise fun a b => a.sequence ≤ b.sequence := by
  have hsorted : (inOrder records).Pairwise fun a b => decide (a.sequence ≤ b.sequence) = true := by
    apply List.pairwise_mergeSort
    · intro a b c hab hbc
      simp only [decide_eq_true_eq] at *
      omega
    · intro a b
      simp only [Bool.or_eq_true, decide_eq_true_eq]
      omega
  simpa using hsorted

lemma inOrder_perm (records : List SubscriptionRecord) : (inOrder records).Perm records :=
  List.mergeSort_perm ..

lemma inOrder_of_ascending {records : List SubscriptionRecord}
    (h : records.Pairwise fun a b => a.sequence ≤ b.sequence) : inOrder records = records :=
  List.mergeSort_of_pairwise (by simpa using h)

end SubscriptionRecord

/-- The key of the subscription that a request is for. -/
def Request.key (request : Request) : String := request.subscriptionKey.getD request.messageHash

namespace Subscriptions

variable {subscriptions : Subscriptions}

/-- Records a request. -/
def add (subscriptions : Subscriptions) (request : Request) : Except Fault Bool × Subscriptions :=
  subscriptions.tryAdd request.messageHash request.frame request.subscriptionKey request.isPrivate

/-- The record of a request that nobody has made before. -/
def newRecord (subscriptions : Subscriptions) (request : Request) : SubscriptionRecord :=
  ⟨request.messageHash, [request.messageHash], request.frame, request.subscriptionKey,
    request.isPrivate, subscriptions.nextSequence⟩

/-- The records with that of a request that nobody has made before. -/
def extend (subscriptions : Subscriptions) (request : Request) : Subscriptions :=
  { subscriptions with
    records := ⟨subscriptions.records.entries ++
      [(request.key, subscriptions.newRecord request)]⟩
    nextSequence := subscriptions.nextSequence + 1 }

/-- The records when one of them has been joined. -/
def joinAt (subscriptions : Subscriptions) (front : List (String × SubscriptionRecord)) (key : String)
    (record : SubscriptionRecord) (back : List (String × SubscriptionRecord)) (hash : String) :
    Subscriptions :=
  { subscriptions with records := ⟨front ++ (key, record.join hash) :: back⟩ }

lemma keys_joinAt {front back : List (String × SubscriptionRecord)} {key : String}
    {record : SubscriptionRecord}
    (he : subscriptions.records.entries = front ++ (key, record) :: back) (hash : String) :
    (subscriptions.joinAt front key record back hash).records.keys = subscriptions.records.keys := by
  simp [Table.keys, joinAt, he]

lemma mem_joinAt {front back : List (String × SubscriptionRecord)} {key : String}
    {record : SubscriptionRecord}
    (he : subscriptions.records.entries = front ++ (key, record) :: back) (hash : String)
    (entry : String × SubscriptionRecord) :
    entry ∈ (subscriptions.joinAt front key record back hash).records.entries →
      entry = (key, record.join hash) ∨ entry ∈ subscriptions.records.entries := by
  intro hm
  rw [he]
  rcases List.mem_append.mp hm with hm | hm
  · exact .inr (List.mem_append_left _ hm)
  · rcases List.mem_cons.mp hm with rfl | hm
    · exact .inl rfl
    · exact .inr (List.mem_append_right _ (List.mem_cons_of_mem _ hm))

lemma key_newRecord (subscriptions : Subscriptions) (request : Request) :
    (subscriptions.newRecord request).key = request.key := rfl

/-- All that can become of a request that is to be recorded. -/
inductive Admission (subscriptions : Subscriptions) (request : Request) :
    Except Fault Bool → Subscriptions → Prop
  | joined {front back : List (String × SubscriptionRecord)} {record : SubscriptionRecord}
      (he : subscriptions.records.entries = front ++ (request.key, record) :: back) :
      Admission subscriptions request (.ok false)
        (subscriptions.joinAt front request.key record back request.messageHash)
  | refused (hk : request.key ∉ subscriptions.records.keys)
      (hf : subscriptions.capacity ≤ subscriptions.count) :
      Admission subscriptions request (.error subscriptions.full) subscriptions
  | added (hk : request.key ∉ subscriptions.records.keys)
      (hf : subscriptions.count < subscriptions.capacity) :
      Admission subscriptions request (.ok true) (subscriptions.extend request)

lemma admission (subscriptions : Subscriptions) (request : Request) :
    Admission subscriptions request (subscriptions.add request).1 (subscriptions.add request).2 := by
  unfold add tryAdd
  dsimp only
  cases hfind : subscriptions.records.get? (request.subscriptionKey.getD request.messageHash) with
  | some record =>
    obtain ⟨front, back, hsplit, hput⟩ := Table.exists_of_find?_eq_some hfind
    dsimp only [put, Table.insert]
    rw [hput]
    exact .joined hsplit
  | none =>
    have hkey : request.key ∉ subscriptions.records.keys := Table.find?_eq_none_iff.mp hfind
    dsimp only
    split
    · rename_i hfull
      exact .refused hkey hfull
    · rename_i hroom
      dsimp only [enroll, put, Table.insert]
      rw [Table.put_of_find?_eq_none hfind]
      exact .added hkey (Nat.lt_of_not_le hroom)

/-! A hash leaves. -/

lemma entries_removeHash (subscriptions : Subscriptions) (hash : String) :
    (subscriptions.removeHash hash).2.records.entries =
      subscriptions.records.entries.filterMap fun entry =>
        (entry.2.without? hash).map (entry.1, ·) := by
  simp only [removeHash]
  induction subscriptions.records.entries with
  | nil => rfl
  | cons entry rest ih =>
    obtain ⟨key, record⟩ := entry
    rw [List.filterMap_cons, ← ih]
    cases ha : record.answers hash <;> cases hempty : (record.detach hash).hashes.isEmpty <;>
      simp [SubscriptionRecord.without?, ha, hempty]

lemma mem_removeHash {hash key : String} {record : SubscriptionRecord} :
    (key, record) ∈ (subscriptions.removeHash hash).2.records.entries ↔
      ∃ before, (key, before) ∈ subscriptions.records.entries ∧
        before.without? hash = some record := by
  rw [entries_removeHash, List.mem_filterMap]
  constructor
  · rintro ⟨⟨k, before⟩, hm, heq⟩
    obtain ⟨rest, hrest, hpair⟩ := Option.map_eq_some_iff.mp heq
    obtain ⟨rfl, rfl⟩ := Prod.mk.inj hpair
    exact ⟨before, hm, hrest⟩
  · rintro ⟨before, hm, hrest⟩
    exact ⟨(key, before), hm, by rw [hrest, Option.map_some]⟩

/-- What no step changes of an entry is a part of what it was before. -/
lemma sublist_map_filterMap {α β : Type} {change : α → Option α} {view : α → β} (items : List α)
    (h : ∀ a b, change a = some b → view b = view a) :
    ((items.filterMap change).map view).Sublist (items.map view) := by
  induction items with
  | nil => exact .slnil
  | cons a rest ih =>
    rw [List.filterMap_cons]
    cases hc : change a with
    | none => exact ih.cons _
    | some b =>
      rw [List.map_cons, List.map_cons, h a b hc]
      exact ih.cons_cons _

lemma removeHash_sublist {β : Type} (view : String × SubscriptionRecord → β)
    (h : ∀ key record rest hash, SubscriptionRecord.without? hash record = some rest →
      view (key, rest) = view (key, record)) (subscriptions : Subscriptions) (hash : String) :
    ((subscriptions.removeHash hash).2.records.entries.map view).Sublist
      (subscriptions.records.entries.map view) := by
  rw [entries_removeHash]
  apply sublist_map_filterMap
  intro entry after hc
  obtain ⟨rest, hrest, rfl⟩ := Option.map_eq_some_iff.mp hc
  exact h entry.1 entry.2 rest hash hrest

/-- The records that are left without a hash when this one leaves, with the keys that they are kept
under, in order. -/
def dropped (subscriptions : Subscriptions) (hash : String) : List (String × SubscriptionRecord) :=
  ((subscriptions.records.entries.filter fun entry => (entry.2.without? hash).isNone).map
    fun entry => (entry.1, entry.2.detach hash)).mergeSort fun a b => a.2.sequence ≤ b.2.sequence

lemma emptied_eq (hash : String) (entries : List (String × SubscriptionRecord)) :
    ((entries.map fun entry =>
      (entry.1, if entry.2.answers hash then entry.2.detach hash else entry.2,
        entry.2.answers hash)).filter fun entry => entry.2.2 && entry.2.1.hashes.isEmpty).map
          (·.2.1) =
      ((entries.filter fun entry => (entry.2.without? hash).isNone).map
        fun entry => (entry.1, entry.2.detach hash)).map (·.2) := by
  induction entries with
  | nil => rfl
  | cons entry rest ih =>
    rw [List.map_cons, List.filter_cons, List.filter_cons, SubscriptionRecord.isNone_without?]
    cases ha : entry.2.answers hash with
    | false => simpa [ha] using ih
    | true =>
      cases hempty : (entry.2.detach hash).hashes.isEmpty with
      | false => simpa [ha, hempty] using ih
      | true => simpa [ha, hempty] using ih

lemma removed_eq (subscriptions : Subscriptions) (hash : String) :
    (subscriptions.removeHash hash).1 = (subscriptions.dropped hash).map (·.2) := by
  have hsame := emptied_eq hash subscriptions.records.entries
  apply (congrArg SubscriptionRecord.inOrder hsame).trans
  unfold SubscriptionRecord.inOrder dropped
  rw [List.map_mergeSort]
  exact fun _ _ _ _ => rfl

lemma keys_dropped_perm (subscriptions : Subscriptions) (hash : String) :
    ((subscriptions.dropped hash).map (·.1)).Perm
      ((subscriptions.records.entries.filter fun entry =>
        (entry.2.without? hash).isNone).map (·.1)) := by
  have hsorted := (List.mergeSort_perm ((subscriptions.records.entries.filter fun entry =>
    (entry.2.without? hash).isNone).map fun entry => (entry.1, entry.2.detach hash))
    fun a b => decide (a.2.sequence ≤ b.2.sequence)).map (·.1)
  rwa [List.map_map] at hsorted

lemma nodup_dropped (hn : subscriptions.records.keys.Nodup) (hash : String) :
    ((subscriptions.dropped hash).map (·.1)).Nodup := by
  rw [(subscriptions.keys_dropped_perm hash).nodup_iff]
  exact hn.sublist (List.filter_sublist.map _)

/-- The keys that were in use are those that still are, and those of the records that are
dropped. -/
lemma mem_dropped {hash key : String} (hn : subscriptions.records.keys.Nodup) :
    key ∈ (subscriptions.dropped hash).map (·.1) ↔ key ∈ subscriptions.records.keys ∧
      key ∉ (subscriptions.removeHash hash).2.records.keys := by
  have hkept : key ∈ (subscriptions.removeHash hash).2.records.keys ↔
      ∃ record rest, (key, record) ∈ subscriptions.records.entries ∧
        record.without? hash = some rest := by
    rw [Table.keys, List.mem_map]
    constructor
    · rintro ⟨⟨key, rest⟩, hm, rfl⟩
      obtain ⟨record, hrecord, hrest⟩ := mem_removeHash.mp hm
      exact ⟨record, rest, hrecord, hrest⟩
    · rintro ⟨record, rest, hrecord, hrest⟩
      exact ⟨(key, rest), mem_removeHash.mpr ⟨record, hrecord, hrest⟩, rfl⟩
  rw [(subscriptions.keys_dropped_perm hash).mem_iff, hkept, List.mem_map]
  constructor
  · rintro ⟨⟨key, record⟩, hm, rfl⟩
    obtain ⟨hentry, hnone⟩ := List.mem_filter.mp hm
    refine ⟨List.mem_map_of_mem hentry, ?_⟩
    rintro ⟨other, rest, hother, hrest⟩
    have heq := List.inj_on_of_nodup_map hn hentry hother rfl
    obtain rfl : record = other := (Prod.mk.inj heq).2
    rw [hrest] at hnone
    exact absurd hnone (by simp)
  · rintro ⟨hm, hdropped⟩
    obtain ⟨⟨key, record⟩, hentry, rfl⟩ := List.mem_map.mp hm
    refine ⟨(key, record), List.mem_filter.mpr ⟨hentry, ?_⟩, rfl⟩
    cases hrest : record.without? hash with
    | none => rfl
    | some rest => exact absurd ⟨record, rest, hentry, hrest⟩ hdropped

/-! Numbers. -/

def numbers (subscriptions : Subscriptions) : List Nat :=
  subscriptions.records.entries.map (·.2.sequence)

/-- Neither a key nor a number stands for two records, and new numbers are to come. -/
structure Numbered (subscriptions : Subscriptions) : Prop where
  keys : subscriptions.records.keys.Nodup
  numbers : subscriptions.numbers.Nodup
  below : ∀ number ∈ subscriptions.numbers, number < subscriptions.nextSequence

lemma numbered_new (capacity : Nat) : (new capacity).Numbered :=
  ⟨List.nodup_nil, List.nodup_nil, fun _ hm => absurd hm List.not_mem_nil⟩

lemma Numbered.joinAt {front back : List (String × SubscriptionRecord)} {key : String}
    {record : SubscriptionRecord} (h : subscriptions.Numbered)
    (he : subscriptions.records.entries = front ++ (key, record) :: back) (hash : String) :
    (subscriptions.joinAt front key record back hash).Numbered := by
  obtain ⟨-, -, hsequence, -⟩ := record.join_frame hash
  have hkeys := keys_joinAt he hash
  have hnumbers : (subscriptions.joinAt front key record back hash).numbers =
      subscriptions.numbers := by
    simp [Subscriptions.numbers, Subscriptions.joinAt, he, hsequence]
  exact ⟨hkeys ▸ h.keys, hnumbers ▸ h.numbers, hnumbers ▸ h.below⟩

lemma Numbered.extend {request : Request} (h : subscriptions.Numbered)
    (hk : request.key ∉ subscriptions.records.keys) : (subscriptions.extend request).Numbered := by
  have hnew : subscriptions.nextSequence ∉ subscriptions.numbers :=
    fun hm => Nat.lt_irrefl _ (h.below _ hm)
  have hnumbers : (subscriptions.extend request).numbers =
      subscriptions.numbers ++ [subscriptions.nextSequence] := List.map_append
  constructor
  · rw [Table.keys, Subscriptions.extend, List.map_append, List.perm_append_comm.nodup_iff]
    exact List.nodup_cons.mpr ⟨hk, h.keys⟩
  · rw [hnumbers, List.perm_append_comm.nodup_iff]
    exact List.nodup_cons.mpr ⟨hnew, h.numbers⟩
  · intro number hm
    rw [hnumbers, List.mem_append] at hm
    rcases hm with hm | hm
    · exact Nat.lt_succ_of_lt (h.below number hm)
    · rw [List.mem_singleton.mp hm]
      exact Nat.lt_succ_self _

lemma Numbered.add (h : subscriptions.Numbered) (request : Request) :
    (subscriptions.add request).2.Numbered := by
  have hadmission := subscriptions.admission request
  generalize subscriptions.add request = added at hadmission ⊢
  obtain ⟨result, after⟩ := added
  dsimp only at hadmission ⊢
  cases hadmission with
  | joined he => exact h.joinAt he _
  | refused => exact h
  | added hk => exact h.extend hk

lemma Numbered.removeHash (h : subscriptions.Numbered) (hash : String) :
    (subscriptions.removeHash hash).2.Numbered := by
  have hkeys := removeHash_sublist Prod.fst (fun _ _ _ _ _ => rfl) subscriptions hash
  have hnumbers := removeHash_sublist (·.2.sequence)
    (fun _ _ _ _ hr => (SubscriptionRecord.without?_frame hr).2.2.1) subscriptions hash
  exact ⟨h.keys.sublist hkeys, h.numbers.sublist hnumbers,
    fun number hm => h.below number (hnumbers.subset hm)⟩

lemma Numbered.enroll (h : subscriptions.Numbered) (key : String) (record : SubscriptionRecord) :
    (subscriptions.enroll key record).Numbered := by
  obtain ⟨others, hperm, hsub, -, hkey⟩ := Table.exists_put_perm key
    (record.place subscriptions.nextSequence) subscriptions.records.entries
  have hothers : (others.map (·.2.sequence)).Sublist subscriptions.numbers := hsub.map _
  constructor
  · exact (hperm.map _).nodup_iff.mpr (List.nodup_cons.mpr ⟨hkey h.keys, h.keys.sublist (hsub.map _)⟩)
  · refine (hperm.map _).nodup_iff.mpr (List.nodup_cons.mpr ⟨fun hm => ?_, h.numbers.sublist hothers⟩)
    exact Nat.lt_irrefl _ (h.below _ (hothers.subset hm))
  · intro number hm
    rcases List.mem_cons.mp ((hperm.map _).mem_iff.mp hm) with rfl | hm
    · exact Nat.lt_succ_self _
    · exact Nat.lt_succ_of_lt (h.below number (hothers.subset hm))

/-! Records are taken over. -/

lemma restore_concat (subscriptions : Subscriptions) (records : List SubscriptionRecord)
    (record : SubscriptionRecord) : subscriptions.restore (records ++ [record]) =
      (subscriptions.restore records).enroll record.key record := by
  simp only [restore, List.foldl_append, List.foldl_cons, List.foldl_nil]

lemma nextSequence_restore (subscriptions : Subscriptions) (records : List SubscriptionRecord) :
    (subscriptions.restore records).nextSequence = subscriptions.nextSequence + records.length := by
  induction records using List.reverseRecOn with
  | nil => rfl
  | append_singleton records record ih =>
    rw [restore_concat, List.length_append, ← Nat.add_assoc, ← ih]
    rfl

lemma capacity_restore (subscriptions : Subscriptions) (records : List SubscriptionRecord) :
    (subscriptions.restore records).capacity = subscriptions.capacity := by
  induction records using List.reverseRecOn with
  | nil => rfl
  | append_singleton records record ih =>
    rw [restore_concat, ← ih]
    rfl

lemma numbered_restore (capacity : Nat) (records : List SubscriptionRecord) :
    ((new capacity).restore records).Numbered := by
  induction records using List.reverseRecOn with
  | nil => exact numbered_new capacity
  | append_singleton records record ih =>
    rw [restore_concat]
    exact ih.enroll _ _

variable {capacity : Nat} {records : List SubscriptionRecord}

lemma nextSequence_restore_new (capacity : Nat) (records : List SubscriptionRecord) :
    ((new capacity).restore records).nextSequence = records.length := by
  rw [nextSequence_restore]
  exact Nat.zero_add _

/-- Every record that is taken over bears the number of its place in the list. -/
lemma exists_of_mem_restore {key : String} {record : SubscriptionRecord}
    (h : (key, record) ∈ ((new capacity).restore records).records.entries) : ∃ source,
      records[record.sequence]? = some source ∧ key = source.key ∧
      record = source.place record.sequence := by
  induction records using List.reverseRecOn with
  | nil => exact absurd h List.not_mem_nil
  | append_singleton records last ih =>
    rw [restore_concat] at h
    obtain ⟨others, hperm, hsub, -⟩ := Table.exists_put_perm last.key
      (last.place ((new capacity).restore records).nextSequence)
      ((new capacity).restore records).records.entries
    rcases List.mem_cons.mp (hperm.mem_iff.mp h) with heq | hm
    · obtain ⟨rfl, rfl⟩ := Prod.mk.inj heq
      refine ⟨last, ?_, rfl, rfl⟩
      rw [nextSequence_restore_new]
      exact List.getElem?_concat_length
    · obtain ⟨source, hsource, hkey, hrecord⟩ := ih (hsub.subset hm)
      obtain ⟨hlt, -⟩ := List.getElem?_eq_some_iff.mp hsource
      exact ⟨source, (List.getElem?_append_left hlt).trans hsource, hkey, hrecord⟩

/-- A record is taken over unless a later one takes its key. -/
lemma mem_restore {place : Nat} {source : SubscriptionRecord}
    (h : records[place]? = some source)
    (hlast : ∀ later other, place < later → records[later]? = some other →
      other.key ≠ source.key) :
    (source.key, source.place place) ∈ ((new capacity).restore records).records.entries := by
  induction records using List.reverseRecOn with
  | nil => exact absurd h (by simp)
  | append_singleton records last ih =>
    rw [restore_concat]
    obtain ⟨others, hperm, -, hothers, -⟩ := Table.exists_put_perm last.key
      (last.place ((new capacity).restore records).nextSequence)
      ((new capacity).restore records).records.entries
    refine hperm.mem_iff.mpr (List.mem_cons.mpr ?_)
    rcases Nat.lt_or_ge place records.length with hlt | hge
    · rw [List.getElem?_append_left hlt] at h
      refine .inr (hothers _ (ih h fun later other hl ho => ?_) (Ne.symm ?_))
      · obtain ⟨hlater, -⟩ := List.getElem?_eq_some_iff.mp ho
        exact hlast later other hl ((List.getElem?_append_left hlater).trans ho)
      · exact hlast records.length last hlt List.getElem?_concat_length
    · obtain ⟨hlt, hget⟩ := List.getElem?_eq_some_iff.mp h
      have hplace : place = records.length := by
        rw [List.length_append] at hlt
        exact Nat.le_antisymm (Nat.le_of_lt_succ hlt) hge
      subst hplace
      obtain rfl := Option.some.inj (List.getElem?_concat_length.symm.trans h)
      rw [nextSequence_restore_new]
      exact .inl rfl

/-- The records in order are those of the table, and no two of them have the same number. -/
lemma mem_ordered {record : SubscriptionRecord} :
    record ∈ subscriptions.ordered ↔ record ∈ subscriptions.records.values :=
  (SubscriptionRecord.inOrder_perm _).mem_iff

lemma Numbered.ordered_ascending (h : subscriptions.Numbered) :
    subscriptions.ordered.Pairwise fun a b => a.sequence < b.sequence := by
  have hperm := (SubscriptionRecord.inOrder_perm subscriptions.records.values).map (·.sequence)
  have hnodup : (subscriptions.ordered.map (·.sequence)).Nodup := by
    refine hperm.nodup_iff.mpr ?_
    rw [Table.values, List.map_map]
    exact h.numbers
  have hascending := SubscriptionRecord.inOrder_ascending subscriptions.records.values
  exact (hascending.and (List.pairwise_map.mp hnodup)).imp fun ⟨hle, hne⟩ =>
    Nat.lt_of_le_of_ne hle hne

end Subscriptions

end MarketFeed
