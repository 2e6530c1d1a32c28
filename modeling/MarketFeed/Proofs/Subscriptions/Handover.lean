import MarketFeed.Proofs.Subscriptions.Records

/-!
# Handing the records of a connection over

A connection that replaces a dead one takes over its records. They do not carry their keys along:
the new connection works them out again, from the key of the request or else from the hash that the
record stands for. That hash changes when it is taken out of a record that it shares, and the key
with it. The records that are handed over are then not those that there were.
-/

namespace MarketFeed

namespace SubscriptionRecord

/-- A record but for its number. -/
def unnumbered (record : SubscriptionRecord) : SubscriptionRecord := record.place 0

/-- Records that take the numbers of their places in the list. -/
def renumbered (records : List SubscriptionRecord) : List SubscriptionRecord := records.mapIdx place

lemma map_renumbered {β : Type} {view : SubscriptionRecord → β}
    (h : ∀ record number, view (place number record) = view record)
    (records : List SubscriptionRecord) : (renumbered records).map view = records.map view := by
  apply List.ext_getElem
  · simp [renumbered]
  · intro place _ _
    simp [renumbered, h]

lemma renumbered_ascending (records : List SubscriptionRecord) :
    (renumbered records).Pairwise fun a b => a.sequence ≤ b.sequence := by
  rw [List.pairwise_iff_getElem]
  intro i j _ _ hij
  simp only [renumbered, List.getElem_mapIdx]
  exact Nat.le_of_lt hij

/-- Whether the record gets another key when the hash leaves. -/
def isRenamedBy (record : SubscriptionRecord) (hash : String) : Bool :=
  record.subscriptionKey.isNone && record.messageHash = hash && record.hashes.any (· ≠ hash)

lemma key_join (record : SubscriptionRecord) (hash : String) :
    (record.join hash).key = record.key :=
  (record.join_frame hash).2.2.2.1

lemma key_without? {record rest : SubscriptionRecord} {hash : String}
    (h : record.without? hash = some rest) (hn : record.isRenamedBy hash = false) :
    rest.key = record.key := by
  cases ha : record.answers hash with
  | false =>
    rw [without?_of_not_answers ha] at h
    rw [Option.some.inj h]
  | true =>
    obtain ⟨rfl, hleft⟩ := without?_of_answers ha h
    obtain ⟨other, hm⟩ := List.exists_mem_of_ne_nil _ hleft
    have hshared : record.hashes.any (· ≠ hash) = true := by
      obtain ⟨hm, hne⟩ := List.mem_filter.mp hm
      exact List.any_eq_true.mpr ⟨other, hm, hne⟩
    unfold key
    cases hk : record.subscriptionKey with
    | some key =>
      have hkeep : (record.detach hash).subscriptionKey = some key := hk
      rw [hkeep]
      rfl
    | none =>
      have hne : record.messageHash ≠ hash := fun heq => by
        rw [isRenamedBy, hk, hshared, heq] at hn
        simp at hn
      have hkeep : (record.detach hash).subscriptionKey = none := hk
      rw [hkeep, detach]
      simp only [if_neg hne]

end SubscriptionRecord

namespace Subscriptions

variable {subscriptions other : Subscriptions} {capacity : Nat}

/-- What changes the records of a connection. -/
inductive Operation where
  | add (request : Request)
  | remove (hash : String)

def after (subscriptions : Subscriptions) : Operation → Subscriptions
  | .add request => (subscriptions.add request).2
  | .remove hash => (subscriptions.removeHash hash).2

def run (subscriptions : Subscriptions) (operations : List Operation) : Subscriptions :=
  operations.foldl after subscriptions

/-- Whether a record gets another key. -/
def renames (subscriptions : Subscriptions) : Operation → Bool
  | .add _ => false
  | .remove hash => subscriptions.records.values.any (·.isRenamedBy hash)

/-- Whether no record gets another key during the run. -/
def keepsKeys (subscriptions : Subscriptions) : List Operation → Bool
  | [] => true
  | operation :: rest =>
    !subscriptions.renames operation && (subscriptions.after operation).keepsKeys rest

/-- What becomes of requests that are recorded one after the other. -/
def decisions (subscriptions : Subscriptions) : List Request → List (Except Fault Bool)
  | [] => []
  | request :: rest =>
    (subscriptions.add request).1 :: (subscriptions.add request).2.decisions rest

/-- The keys that the records would have if they were recorded now. -/
def ownKeys (subscriptions : Subscriptions) : List String :=
  subscriptions.records.values.map (·.key)

/-- Nobody can tell the ones from the others, but for the numbers of the records. -/
structure Agrees (subscriptions other : Subscriptions) : Prop where
  count : other.count = subscriptions.count
  ordered : other.ordered.map (·.unnumbered) = subscriptions.ordered.map (·.unnumbered)
  privateHashes : other.privateHashes = subscriptions.privateHashes
  containsHash : ∀ hash, other.containsHash hash = subscriptions.containsHash hash
  decisions : ∀ requests, other.decisions requests = subscriptions.decisions requests

/-! What a run keeps. -/

lemma run_numbered (capacity : Nat) (operations : List Operation) :
    ((new capacity).run operations).Numbered := by
  induction operations using List.reverseRecOn with
  | nil => exact numbered_new capacity
  | append_singleton operations operation ih =>
    rw [run, List.foldl_concat]
    cases operation with
    | add request => exact ih.add request
    | remove hash => exact ih.removeHash hash

/-- Every record stands under the key that it would have now. -/
def Named (subscriptions : Subscriptions) : Prop :=
  ∀ entry ∈ subscriptions.records.entries, entry.2.key = entry.1

lemma Named.ownKeys (h : subscriptions.Named) :
    subscriptions.ownKeys = subscriptions.records.keys := by
  rw [Subscriptions.ownKeys, Table.values, List.map_map]
  exact List.map_congr_left h

lemma Named.add (h : subscriptions.Named) (request : Request) :
    (subscriptions.add request).2.Named := by
  have hadmission := subscriptions.admission request
  generalize subscriptions.add request = added at hadmission ⊢
  obtain ⟨result, after⟩ := added
  dsimp only at hadmission ⊢
  cases hadmission with
  | @joined front back record he =>
    intro entry hm
    rw [Named, he] at h
    rcases List.mem_append.mp hm with hm | hm
    · exact h entry (List.mem_append_left _ hm)
    · rcases List.mem_cons.mp hm with rfl | hm
      · exact (record.key_join _).trans (h (request.key, record) (by simp))
      · exact h entry (List.mem_append_right _ (List.mem_cons_of_mem _ hm))
  | refused => exact h
  | added =>
    intro entry hm
    rcases List.mem_append.mp hm with hm | hm
    · exact h entry hm
    · rw [List.mem_singleton.mp hm]
      exact key_newRecord ..

lemma Named.removeHash {hash : String} (h : subscriptions.Named)
    (hn : subscriptions.records.values.any (·.isRenamedBy hash) = false) :
    (subscriptions.removeHash hash).2.Named := by
  rintro ⟨key, rest⟩ hm
  obtain ⟨before, hm, hrest⟩ := mem_removeHash.mp hm
  have hkept : before.isRenamedBy hash = false := by
    simpa using List.any_eq_false.mp hn before (List.mem_map_of_mem hm)
  exact (SubscriptionRecord.key_without? hrest hkept).trans (h _ hm)

lemma Named.run {operations : List Operation} (h : subscriptions.Named)
    (hk : subscriptions.keepsKeys operations = true) : (subscriptions.run operations).Named := by
  induction operations generalizing subscriptions with
  | nil => exact h
  | cons operation rest ih =>
    rw [keepsKeys, Bool.and_eq_true, Bool.not_eq_true'] at hk
    refine ih ?_ hk.2
    cases operation with
    | add request => exact h.add request
    | remove hash => exact h.removeHash hk.1

/-! Requests are decided by the keys alone. -/

/-- The same keys are in use, and there is the same room for others. -/
structure SameKeys (subscriptions other : Subscriptions) : Prop where
  keys : other.records.keys.Perm subscriptions.records.keys
  capacity : other.capacity = subscriptions.capacity

lemma count_eq_length_keys (subscriptions : Subscriptions) :
    subscriptions.count = subscriptions.records.keys.length := by
  rw [Table.keys, List.length_map]
  rfl

lemma SameKeys.count (h : subscriptions.SameKeys other) : other.count = subscriptions.count := by
  rw [count_eq_length_keys, count_eq_length_keys, h.keys.length_eq]

/-- The keys after a request: there is one more if it is new and there is room. -/
lemma keys_add (subscriptions : Subscriptions) (request : Request) :
    (subscriptions.add request).1 =
      (if request.key ∈ subscriptions.records.keys then .ok false
        else if subscriptions.capacity ≤ subscriptions.count then .error subscriptions.full
        else .ok true) ∧
    (subscriptions.add request).2.records.keys =
      (if request.key ∈ subscriptions.records.keys ∨ subscriptions.capacity ≤ subscriptions.count
        then subscriptions.records.keys else subscriptions.records.keys ++ [request.key]) ∧
    (subscriptions.add request).2.capacity = subscriptions.capacity := by
  have hadmission := subscriptions.admission request
  generalize subscriptions.add request = added at hadmission ⊢
  obtain ⟨result, after⟩ := added
  dsimp only at hadmission ⊢
  cases hadmission with
  | joined he =>
    have hkey : request.key ∈ subscriptions.records.keys := by simp [Table.keys, he]
    rw [if_pos hkey, if_pos (.inl hkey)]
    exact ⟨rfl, keys_joinAt he _, rfl⟩
  | refused hk hf =>
    rw [if_neg hk, if_pos hf, if_pos (.inr hf)]
    exact ⟨rfl, rfl, rfl⟩
  | added hk hf =>
    have hneither : ¬(request.key ∈ subscriptions.records.keys ∨
        subscriptions.capacity ≤ subscriptions.count) :=
      fun h => h.elim hk (Nat.not_le_of_lt hf)
    rw [if_neg hk, if_neg (Nat.not_le_of_lt hf), if_neg hneither]
    exact ⟨rfl, List.map_append, rfl⟩

lemma capacity_run (capacity : Nat) (operations : List Operation) :
    ((new capacity).run operations).capacity = capacity := by
  induction operations using List.reverseRecOn with
  | nil => rfl
  | append_singleton operations operation ih =>
    rw [run, List.foldl_concat]
    refine Eq.trans ?_ ih
    cases operation with
    | add request => exact (keys_add _ request).2.2
    | remove hash => rfl

lemma SameKeys.add (h : subscriptions.SameKeys other) (request : Request) :
    (other.add request).1 = (subscriptions.add request).1 ∧
      (subscriptions.add request).2.SameKeys (other.add request).2 := by
  obtain ⟨hdecision, hkeys, hcapacity⟩ := subscriptions.keys_add request
  obtain ⟨hdecision', hkeys', hcapacity'⟩ := other.keys_add request
  have hfull : other.full = subscriptions.full := by rw [full, full, h.capacity]
  simp only [h.keys.mem_iff, h.capacity, h.count] at hdecision' hkeys'
  refine ⟨by rw [hdecision, hdecision', hfull], ?_,
    hcapacity'.trans (h.capacity.trans hcapacity.symm)⟩
  rw [hkeys, hkeys']
  split
  · exact h.keys
  · exact h.keys.append_right _

lemma SameKeys.decisions (h : subscriptions.SameKeys other) (requests : List Request) :
    other.decisions requests = subscriptions.decisions requests := by
  induction requests generalizing subscriptions other with
  | nil => rfl
  | cons request rest ih =>
    obtain ⟨hdecision, hsame⟩ := h.add request
    rw [Subscriptions.decisions, Subscriptions.decisions, hdecision, ih hsame]

/-- Whoever decides alike has the same keys. -/
lemma mem_keys_of_decisions
    (h : ∀ requests, other.decisions requests = subscriptions.decisions requests) (key : String) :
    key ∈ other.records.keys ↔ key ∈ subscriptions.records.keys := by
  have hone := h [⟨key, .null, none, .persistent, false⟩]
  simp only [Subscriptions.decisions, List.cons.injEq, and_true] at hone
  rw [(keys_add ..).1, (keys_add ..).1] at hone
  have hkey : Request.key ⟨key, .null, none, .persistent, false⟩ = key := rfl
  rw [hkey] at hone
  constructor
  · intro hm
    by_contra hn
    rw [if_pos hm, if_neg hn] at hone
    split at hone <;> simp at hone
  · intro hm
    by_contra hn
    rw [if_pos hm, if_neg hn] at hone
    split at hone <;> simp at hone

/-! What the new connection has. -/

variable {records : List SubscriptionRecord}

/-- Records whose keys differ are all taken over, in their order. -/
lemma entries_restore (h : (records.map (·.key)).Nodup) :
    ((new capacity).restore records).records.entries =
      (SubscriptionRecord.renumbered records).map fun record => (record.key, record) := by
  induction records using List.reverseRecOn with
  | nil => rfl
  | append_singleton records last ih =>
    rw [List.map_append, List.nodup_append] at h
    obtain ⟨hbefore, -, hapart⟩ := h
    have hnew : Table.find? last.key ((new capacity).restore records).records.entries = none := by
      refine Table.find?_eq_none_iff.mpr fun hm => ?_
      obtain ⟨⟨key, record⟩, hm, rfl⟩ := List.mem_map.mp hm
      obtain ⟨source, hsource, hkey, -⟩ := exists_of_mem_restore hm
      exact hapart _ (List.mem_map_of_mem (List.mem_of_getElem? hsource)) last.key (by simp)
        hkey.symm
    rw [restore_concat, SubscriptionRecord.renumbered, List.mapIdx_concat, List.map_append,
      ← nextSequence_restore_new capacity]
    exact (Table.put_of_find?_eq_none hnew _).trans (congrArg (· ++ _) (ih hbefore))

lemma ordered_restore (h : (records.map (·.key)).Nodup) :
    ((new capacity).restore records).ordered = SubscriptionRecord.renumbered records := by
  have hvalues : ((new capacity).restore records).records.values =
      SubscriptionRecord.renumbered records := by
    rw [Table.values, entries_restore h, List.map_map]
    exact List.map_id _
  rw [ordered, hvalues]
  exact SubscriptionRecord.inOrder_of_ascending (SubscriptionRecord.renumbered_ascending records)

lemma keys_restore (h : (records.map (·.key)).Nodup) :
    ((new capacity).restore records).records.keys = records.map (·.key) := by
  rw [Table.keys, entries_restore h, List.map_map]
  exact SubscriptionRecord.map_renumbered (fun _ _ => rfl) records

/-- What is said about the hashes depends on the ordered records alone, and not on their numbers. -/
lemma hashes_of_unnumbered
    (h : other.ordered.map (·.unnumbered) = subscriptions.ordered.map (·.unnumbered)) :
    other.privateHashes = subscriptions.privateHashes ∧
      ∀ hash, other.containsHash hash = subscriptions.containsHash hash := by
  have hprivate : ∀ records : List SubscriptionRecord,
      (records.filter (·.isPrivate)).flatMap (·.hashes) =
        ((records.map (·.unnumbered)).filter (·.isPrivate)).flatMap (·.hashes) := by
    intro records
    rw [List.filter_map, List.flatMap_map]
    rfl
  have hcontains : ∀ (subscriptions : Subscriptions) (hash : String),
      subscriptions.containsHash hash =
        (subscriptions.ordered.map (·.unnumbered)).any (·.answers hash) := by
    intro subscriptions hash
    rw [List.any_map, containsHash]
    exact ((SubscriptionRecord.inOrder_perm subscriptions.records.values).any_eq).symm
  constructor
  · rw [privateHashes, privateHashes, hprivate, hprivate subscriptions.ordered, h]
  · intro hash
    rw [hcontains, hcontains subscriptions, h]

lemma keys_restore_subset (records : List SubscriptionRecord) :
    ((new capacity).restore records).records.keys ⊆ records.map (·.key) := by
  intro key hm
  obtain ⟨entry, hentry, rfl⟩ := List.mem_map.mp hm
  obtain ⟨source, hsource, hkey, -⟩ := exists_of_mem_restore hentry
  rw [hkey]
  exact List.mem_map_of_mem (List.mem_of_getElem? hsource)

lemma ownKeys_perm (subscriptions : Subscriptions) :
    (subscriptions.ordered.map (·.key)).Perm subscriptions.ownKeys :=
  (SubscriptionRecord.inOrder_perm _).map _

/-- If the records have the keys that are in use, nobody can tell the difference. -/
lemma agrees_of_perm (hn : subscriptions.Numbered)
    (h : subscriptions.ownKeys.Perm subscriptions.records.keys) :
    subscriptions.Agrees ((new subscriptions.capacity).restore subscriptions.ordered) := by
  have hkeys := subscriptions.ownKeys_perm.trans h
  have hnodup : (subscriptions.ordered.map (·.key)).Nodup := hkeys.nodup_iff.mpr hn.keys
  have hsame : subscriptions.SameKeys
      ((new subscriptions.capacity).restore subscriptions.ordered) := by
    refine ⟨?_, capacity_restore ..⟩
    rw [keys_restore hnodup]
    exact hkeys
  have hordered : ((new subscriptions.capacity).restore subscriptions.ordered).ordered.map
      (·.unnumbered) = subscriptions.ordered.map (·.unnumbered) := by
    rw [ordered_restore hnodup]
    exact SubscriptionRecord.map_renumbered (fun _ _ => rfl) _
  obtain ⟨hprivate, hcontains⟩ := hashes_of_unnumbered hordered
  exact ⟨hsame.count, hordered, hprivate, hcontains, hsame.decisions⟩

/-- As many records and the same decisions mean that every key is that of a record. -/
lemma perm_of_agrees (hn : subscriptions.Numbered)
    (h : subscriptions.Agrees ((new subscriptions.capacity).restore subscriptions.ordered)) :
    subscriptions.ownKeys.Perm subscriptions.records.keys := by
  have hkeys : subscriptions.records.keys ⊆ subscriptions.ordered.map (·.key) := fun key hm =>
    keys_restore_subset _ ((mem_keys_of_decisions h.decisions key).mpr hm)
  have hlength : (subscriptions.ordered.map (·.key)).length =
      subscriptions.records.keys.length := by
    rw [subscriptions.ownKeys_perm.length_eq]
    simp [ownKeys, Table.values, Table.keys]
  have hperm := (List.subperm_of_subset hn.keys hkeys).perm_of_length_le (Nat.le_of_eq hlength)
  exact (hperm.trans subscriptions.ownKeys_perm).symm

/-- Whatever has been recorded and taken out before, the records that are handed over make up what
there was exactly if their own keys are those that are in use; they are, if no record has got
another key on the way. -/
theorem handover_agrees_iff_own_keys (capacity : Nat) (operations : List Operation) :
    let before := (new capacity).run operations
    let after := (new capacity).restore before.ordered
    (before.Agrees after ↔ before.ownKeys.Perm before.records.keys) ∧
    ((new capacity).keepsKeys operations = true → before.Agrees after) := by
  intro before after
  have hnumbered : before.Numbered := run_numbered capacity operations
  have hcapacity : before.capacity = capacity := capacity_run capacity operations
  have hiff : before.Agrees after ↔ before.ownKeys.Perm before.records.keys := by
    have hboth := Iff.intro (perm_of_agrees hnumbered) (agrees_of_perm hnumbered)
    rwa [hcapacity] at hboth
  refine ⟨hiff, fun hk => hiff.mpr ?_⟩
  have hnew : (new capacity).Named := fun _ hm => absurd hm List.not_mem_nil
  rw [(hnew.run hk).ownKeys]

/-- Two channels that share a subscription, and one of them gone: the record keeps its key. -/
theorem shared_record_handed_over :
    let request := fun hash => (Request.persistent hash .null).withKey (some "book")
    let operations := [.add (request "book:10"), .add (request "book:50"),
      .add (.persistent "trades" .null), .remove "book:10"]
    (new 2).keepsKeys operations = true ∧ ((new 2).run operations).Agrees
      ((new 2).restore ((new 2).run operations).ordered) := by
  intro request operations
  have hkeeps : (new 2).keepsKeys operations = true := by decide
  exact ⟨hkeeps, (handover_agrees_iff_own_keys 2 operations).2 hkeeps⟩

/-- "b" joins the record of "a", which is renamed when "a" leaves; then "b" gets a record of its
own. -/
def overtaking : List Operation :=
  [.add (.persistent "a" .null), .add ((Request.persistent "b" .null).withKey (some "a")),
    .remove "a", .add (.persistent "b" .null)]

/-- Of two records with the same key only one is handed over. -/
theorem renamed_record_overwritten :
    ((new 200).run overtaking).count = 2 ∧
    ((new 200).restore ((new 200).run overtaking).ordered).count = 1 ∧
    ¬((new 200).run overtaking).Agrees
      ((new 200).restore ((new 200).run overtaking).ordered) := by
  have hbefore : ((new 200).run overtaking).count = 2 := rfl
  have hordered : ((new 200).run overtaking).ordered =
      [⟨"b", ["b"], .null, none, false, 0⟩, ⟨"b", ["b"], .null, none, false, 1⟩] :=
    SubscriptionRecord.inOrder_of_ascending (by decide)
  have hafter : ((new 200).restore ((new 200).run overtaking).ordered).count = 1 := by
    rw [hordered]
    rfl
  refine ⟨hbefore, hafter, fun h => ?_⟩
  have hcount := h.count
  rw [hbefore, hafter] at hcount
  exact absurd hcount (by decide)

end Subscriptions

end MarketFeed
