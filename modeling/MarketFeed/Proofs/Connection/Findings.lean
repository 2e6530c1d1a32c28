import MarketFeed.Proofs.Connection.Desk
import MarketFeed.Proofs.Connection.Handlers
import MarketFeed.Proofs.Registry.Rounds

/-!
# What handlers leave for the waiters

A handler reaches the waiters by its findings alone: that the frame concerns a hash, a value for a
hash, or a fault in place of one. Every finding declares its hash to be affected, and nothing is
given out before the handler is done.
-/

namespace MarketFeed

inductive Finding where
  | affects (hash : String)
  | resolve (hash : String) (update : Update)
  | reject (hash : String) (fault : Fault)

namespace Finding

def hash : Finding → String
  | affects hash | resolve hash _ | reject hash _ => hash

def delivery? : Finding → Option (String × Delivery Update)
  | affects _ => none
  | resolve hash update => some (hash, .ok update)
  | reject hash fault => some (hash, .error fault)

def rejection? : Finding → Option (String × Delivery Update)
  | reject hash fault => some (hash, .error fault)
  | _ => none

/-- What is given out for a handler with these findings that fails with the fault: first its own
rejections, in their order, and then the fault once for each of its other hashes. -/
structure Failed (findings : List Finding) (fault : Fault)
    (given : List (String × Delivery Update)) : Prop where
  order : ∃ missed : List String,
    given = findings.filterMap rejection? ++ missed.map fun hash => (hash, .error fault)
  rejected : ∀ hash own, reject hash own ∈ findings →
    sentTo hash given = sentTo hash (findings.filterMap rejection?)
  missed : ∀ finding ∈ findings, (∀ own, reject finding.hash own ∉ findings) →
    sentTo finding.hash given = [.error fault]
  others : ∀ hash, (∀ finding ∈ findings, finding.hash ≠ hash) → sentTo hash given = []

lemma Failed.not_ok {findings : List Finding} {fault : Fault}
    {given : List (String × Delivery Update)} {hash : String} {update : Update}
    (h : Failed findings fault given) : (hash, .ok update) ∉ given := by
  obtain ⟨missed, rfl⟩ := h.order
  intro hm
  rcases List.mem_append.mp hm with hm | hm
  · obtain ⟨finding, -, hkind⟩ := List.mem_filterMap.mp hm
    cases finding <;> simp [rejection?] at hkind
  · obtain ⟨other, -, he⟩ := List.mem_map.mp hm
    exact absurd (congrArg Prod.snd he) (by simp)

lemma filter_filterMap_delivery? {fails : String × Delivery Update → Bool}
    (hv : ∀ hash update, fails (hash, .ok update) = false)
    (hf : ∀ hash fault, fails (hash, .error fault) = true) (findings : List Finding) :
    (findings.filterMap delivery?).filter fails = findings.filterMap rejection? := by
  induction findings with
  | nil => rfl
  | cons finding rest ih =>
    cases finding with
    | affects => exact ih
    | resolve hash update => exact (List.filter_cons_of_neg (by simp [hv])).trans ih
    | reject hash fault =>
      exact (List.filter_cons_of_pos (hf hash fault)).trans
        (congrArg ((hash, .error fault) :: ·) ih)

lemma mem_map_rejection? {hash : String} {findings : List Finding} :
    hash ∈ (findings.filterMap rejection?).map (·.1) ↔ ∃ fault, reject hash fault ∈ findings := by
  constructor
  · intro hm
    obtain ⟨rejection, hrejection, rfl⟩ := List.mem_map.mp hm
    obtain ⟨finding, hfinding, hkind⟩ := List.mem_filterMap.mp hrejection
    cases finding with
    | reject hash fault =>
      obtain rfl := Option.some.inj hkind
      exact ⟨fault, hfinding⟩
    | _ => exact absurd hkind (by simp [rejection?])
  · rintro ⟨fault, hm⟩
    exact List.mem_map.mpr ⟨_, List.mem_filterMap.mpr ⟨_, hm, rfl⟩, rfl⟩

/-- The other hashes may be told in any order. -/
lemma Failed.of_missed {findings : List Finding} {fault : Fault} {missed : List String}
    (hn : missed.Nodup) (hm : ∀ hash, hash ∈ missed ↔
      (∃ finding ∈ findings, finding.hash = hash) ∧ ∀ own, reject hash own ∉ findings) :
    Failed findings fault
      (findings.filterMap rejection? ++ missed.map fun hash => (hash, .error fault)) := by
  have hsent : ∀ hash, sentTo hash
      (findings.filterMap rejection? ++ missed.map fun hash => (hash, .error fault)) =
      sentTo hash (findings.filterMap rejection?) ++
        if hash ∈ missed then [.error fault] else [] := by
    intro hash
    rw [sentTo_append, sentTo_map hn]
  have hunrejected : ∀ hash, (∀ own, reject hash own ∉ findings) →
      sentTo hash (findings.filterMap rejection?) = [] := fun hash hnone =>
    sentTo_eq_nil fun hrejected => (mem_map_rejection?.mp hrejected).elim hnone
  refine ⟨⟨missed, rfl⟩, fun hash own hown => ?_, fun finding hf hnone => ?_, fun hash hnone => ?_⟩
  · have hout : hash ∉ missed := fun h => ((hm hash).mp h).2 own hown
    rw [hsent, if_neg hout, List.append_nil]
  · have hin : finding.hash ∈ missed := (hm finding.hash).mpr ⟨⟨finding, hf, rfl⟩, hnone⟩
    rw [hsent, hunrejected finding.hash hnone, if_pos hin, List.nil_append]
  · have hout : hash ∉ missed := by
      intro h
      obtain ⟨⟨finding, hf, he⟩, -⟩ := (hm hash).mp h
      exact hnone finding hf he
    have hown : ∀ own, reject hash own ∉ findings := fun own hown => hnone _ hown rfl
    rw [hsent, hunrejected hash hown, if_neg hout, List.append_nil]

end Finding

/-- What is left for the waiters are these findings, in this order. -/
structure Dispatch.Hears (before : Dispatch) (findings : List Finding) (after : Dispatch) :
    Prop where
  affected : after.affected = (findings.map Finding.hash).foldl
    (fun affected hash => insertNew hash affected) before.affected
  deliveries : after.deliveries = before.deliveries ++ findings.filterMap Finding.delivery?

namespace Dispatch

variable {dispatch : Dispatch} {findings : List Finding} {url : String} {store : FeedStore}

lemma Hears.queued (h : (new url store).Hears findings dispatch) :
    dispatch.deliveries = findings.filterMap Finding.delivery? :=
  h.deliveries

lemma Hears.mem_affected (h : (new url store).Hears findings dispatch) {hash : String} :
    hash ∈ dispatch.affected ↔ ∃ finding ∈ findings, finding.hash = hash := by
  have hnone : hash ∉ (new url store).affected := List.not_mem_nil
  rw [h.affected, mem_foldl_insertNew, or_iff_right hnone, List.mem_map]

lemma Hears.failed (h : (new url store).Hears findings dispatch) (fault : Fault) :
    Finding.Failed findings fault (Circuit.deliveriesOfFailure dispatch fault) := by
  have haffected : dispatch.affected.Nodup := by
    rw [h.affected]
    exact nodup_foldl_insertNew List.nodup_nil _
  rw [Circuit.deliveriesOfFailure, h.queued,
    Finding.filter_filterMap_delivery? (fun _ _ => rfl) (fun _ _ => rfl)]
  refine .of_missed (haffected.filter _) fun hash => ?_
  rw [List.mem_filter, h.mem_affected, Bool.not_eq_true', Bool.eq_false_iff, ne_eq,
    List.contains_iff_mem, Finding.mem_map_rejection?, not_exists]

end Dispatch

end MarketFeed
