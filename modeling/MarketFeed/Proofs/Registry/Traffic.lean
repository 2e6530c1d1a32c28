import MarketFeed.Proofs.Registry.Entries
import MarketFeed.Registry.Handle

/-!
# Traffic on a registry

Many callers use a registry at once. To settle a hash and to unsubscribe from it takes two steps,
the second of which removes the entry of the hash if it is idle. To reject everything takes one step
that lists the hashes and then one step for each of them. Other callers may act between any two
steps.
-/

namespace MarketFeed

variable {ν : Type}

/-- A registry together with the steps that are still to come of calls under way: the hashes to
prune, and the hashes to remove and the faults to reject them with. -/
structure Traffic (ν : Type) where
  registry : Registry ν
  prunes : List String
  removals : List (String × Fault)

namespace Traffic

/-- One atomic step of some caller. -/
inductive Step (ν : Type) where
  | register (hash : String) (kind : WaiterKind)
  /-- The first step of settling a hash. -/
  | settle (hash : String) (delivery : Delivery ν)
  /-- The first step of unsubscribing from a hash. -/
  | unsubscribe (hash : String)
  /-- The first step of rejecting everything. -/
  | rejectAll (fault : Fault)
  /-- The second step of settling a hash or of unsubscribing from it. -/
  | prune (hash : String)
  /-- One of the removals that are still to come. -/
  | remove (index : Nat)
  | drop (waiter : Waiter)

/-- A registry that no call is under way on. -/
def quiet (registry : Registry ν) : Traffic ν := ⟨registry, [], []⟩

/-- A second step that no call is due to make does nothing. -/
def after (traffic : Traffic ν) : Step ν → Traffic ν
  | .register hash kind => { traffic with registry := (traffic.registry.register hash kind).2 }
  | .settle hash delivery => { traffic with
      registry := (traffic.registry.deliver hash delivery).2
      prunes := if traffic.registry.contains hash then hash :: traffic.prunes else traffic.prunes }
  | .unsubscribe hash => { traffic with
      registry := (traffic.registry.dropChannel hash).2, prunes := hash :: traffic.prunes }
  | .rejectAll fault => { traffic with
      removals := traffic.registry.entries.keys.map ((·, fault)) ++ traffic.removals }
  | .prune hash =>
    if hash ∈ traffic.prunes then { traffic with
      registry := traffic.registry.removeIfIdle hash, prunes := traffic.prunes.erase hash }
    else traffic
  | .remove index =>
    match traffic.removals[index]? with
    | some (hash, fault) => { traffic with
        registry := (traffic.registry.rejectAndRemove hash fault).2
        removals := traffic.removals.eraseIdx index }
    | none => traffic
  | .drop waiter => { traffic with registry := traffic.registry.discard waiter }

def run (traffic : Traffic ν) (steps : List (Step ν)) : Traffic ν := steps.foldl after traffic

/-- What a step delivers to a hash. -/
def delivery? (traffic : Traffic ν) (hash : String) : Step ν → Option (Delivery ν)
  | .settle other delivery => if other = hash then some delivery else none
  | .remove index => (traffic.removals[index]?).bind fun (other, fault) =>
      if other = hash then some (.error fault) else none
  | _ => none

lemma delivery?_remove (traffic : Traffic ν) (hash : String) (index : Nat) :
    traffic.delivery? hash (.remove index) = (traffic.removals[index]?).bind fun removal =>
      if removal.1 = hash then some (.error removal.2) else none := rfl

/-- A step of some caller, or a request for a delivery by the holder of one waiter. -/
inductive Moment (ν : Type) where
  | step (step : Step ν)
  | poll

def pass (traffic : Traffic ν) : Moment ν → Traffic ν
  | .step step => traffic.after step
  | .poll => traffic

def passAll (traffic : Traffic ν) (moments : List (Moment ν)) : Traffic ν :=
  moments.foldl pass traffic

/-- What is delivered to a hash. -/
def deliveries (traffic : Traffic ν) (hash : String) : List (Moment ν) → List (Delivery ν)
  | [] => []
  | .step step :: rest =>
    (traffic.delivery? hash step).toList ++ (traffic.after step).deliveries hash rest
  | .poll :: rest => traffic.deliveries hash rest

/-- The replies to the holder's requests. -/
def replies (traffic : Traffic ν) (handle : Handle) : List (Moment ν) → List (Reply ν)
  | [] => []
  | .step step :: rest => (traffic.after step).replies handle rest
  | .poll :: rest => (handle.await traffic.registry).1 ::
      traffic.replies (handle.await traffic.registry).2 rest

/-- The number of the holder's requests. -/
def polls : List (Moment ν) → Nat
  | [] => 0
  | .step _ :: rest => polls rest
  | .poll :: rest => polls rest + 1

variable {traffic : Traffic ν} {registry : Registry ν} {hash : String} {step : Step ν}
  {steps : List (Step ν)}

/-! Calls that nobody interrupts. -/

lemma run_settle (registry : Registry ν) (hash : String) (delivery : Delivery ν) :
    (quiet registry).run [.settle hash delivery, .prune hash] =
      quiet (registry.settle hash delivery).2 := by
  rw [run, List.foldl_cons, List.foldl_cons, List.foldl_nil]
  cases hg : registry.entries.get? hash with
  | none =>
    simp [after, quiet, Registry.contains_eq, hg, Registry.settle, Registry.deliver_of_none hg]
  | some entry =>
    have hs : (registry.settle hash delivery).2 =
        (registry.deliver hash delivery).2.removeIfIdle hash := by
      rw [Registry.settle, Registry.deliver, hg]
    simp [after, quiet, Registry.contains_eq, hg, hs]

lemma run_unsubscribe (registry : Registry ν) (hash : String) :
    (quiet registry).run [.unsubscribe hash, .prune hash] =
      quiet (registry.unsubscribe hash).2 := by
  rw [run, List.foldl_cons, List.foldl_cons, List.foldl_nil]
  simp [after, quiet, Registry.unsubscribe]

lemma run_rejectAll (registry : Registry ν) (fault : Fault) :
    (quiet registry).run (.rejectAll fault :: registry.entries.keys.map fun _ => .remove 0) =
      quiet (registry.rejectAll fault).2 := by
  suffices h : ∀ (keys : List String) (registry : Registry ν),
      (⟨registry, [], keys.map ((·, fault))⟩ : Traffic ν).run (keys.map fun _ => .remove 0) =
        quiet (keys.foldl (fun registry hash => (registry.rejectAndRemove hash fault).2)
          registry) by
    rw [run, List.foldl_cons, Registry.rejectAll_snd, ← h]
    simp [after, quiet, run]
  intro keys
  induction keys with
  | nil => exact fun _ => rfl
  | cons hash rest ih => exact fun registry => ih _

/-! Entries that are idle. -/

/-- An idle entry is still to be pruned. -/
def Tidy (traffic : Traffic ν) : Prop :=
  ∀ hash entry, traffic.registry.entries.get? hash = some entry → entry.isIdle = true →
    hash ∈ traffic.prunes

lemma tidy_quiet_empty : (quiet (Registry.empty : Registry ν)).Tidy := by
  intro hash entry hg
  exact absurd hg (by simp [quiet, Registry.empty])

lemma Tidy.of_changes {change : Option Entry → Option Entry} {after : Traffic ν}
    (h : traffic.Tidy) (hc : traffic.registry.Changes hash change after.registry)
    (hp : ∀ other, other ≠ hash → other ∈ traffic.prunes → other ∈ after.prunes)
    (hi : ∀ entry, change (traffic.registry.entries.get? hash) = some entry →
      entry.isIdle = true → hash ∈ after.prunes) : after.Tidy := by
  intro other entry hg hidle
  rw [hc other] at hg
  split_ifs at hg with he
  · subst he
    exact hi entry hg hidle
  · exact hp other (Ne.symm he) (h other entry hg hidle)

lemma tidy_after (h : traffic.Tidy) (step : Step ν) : (traffic.after step).Tidy := by
  cases step with
  | register hash kind =>
    cases kind with
    | oneShot =>
      refine h.of_changes (Registry.changes_register_oneShot _ hash) (fun _ _ hp => hp) ?_
      rintro entry ⟨rfl⟩ hidle
      exact absurd hidle (by simp [Entry.isIdle])
    | persistent =>
      obtain ⟨-, channel, hc⟩ := Registry.register_persistent traffic.registry hash
      refine h.of_changes hc (fun _ _ hp => hp) ?_
      rintro entry ⟨rfl⟩ hidle
      exact absurd hidle (by simp [Entry.isIdle])
  | settle hash delivery =>
    refine h.of_changes (Registry.changes_deliver _ hash delivery) (fun other _ hp => ?_) ?_
    · dsimp only [after]
      split_ifs
      · exact List.mem_cons_of_mem _ hp
      · exact hp
    · intro entry he _
      obtain ⟨found, hg, -⟩ := Option.map_eq_some_iff.mp he
      simp [after, Registry.contains_eq, hg]
  | unsubscribe hash =>
    refine h.of_changes (Registry.changes_dropChannel _ hash) (fun other _ hp => ?_) ?_
    · exact List.mem_cons_of_mem _ hp
    · exact fun _ _ _ => List.mem_cons_self ..
  | rejectAll fault => exact h
  | prune hash =>
    rw [after]
    split_ifs with hm
    · refine h.of_changes (Registry.changes_removeIfIdle _ hash) (fun other hne hp => ?_) ?_
      · exact (List.mem_erase_of_ne hne).mpr hp
      · intro entry he hidle
        have hbusy := (Option.filter_eq_some_iff.mp he).2
        exact absurd hidle (by simpa using hbusy)
    · exact h
  | remove index =>
    rw [after]
    split
    · refine h.of_changes (Registry.changes_rejectAndRemove _ _ _) (fun _ _ hp => hp) ?_
      intro entry he
      exact absurd he (by simp)
    · exact h
  | drop waiter =>
    intro hash entry hg
    rw [after, Registry.entries_discard] at hg
    exact h hash entry hg

lemma tidy_run (h : traffic.Tidy) (steps : List (Step ν)) : (traffic.run steps).Tidy := by
  induction steps generalizing traffic with
  | nil => exact h
  | cons step rest ih => exact ih (tidy_after h step)

/-- Unless it is still to be pruned, an entry is there exactly if somebody may wait on it. -/
lemma Tidy.contains_iff (h : traffic.Tidy) (hp : hash ∉ traffic.prunes) :
    traffic.registry.contains hash = true ↔
      traffic.registry.isPersistent hash = true ∨ 0 < traffic.registry.pendingOneShot hash := by
  rw [Registry.contains_eq, Registry.isPersistent, Registry.pendingOneShot, Registry.entry]
  cases hg : traffic.registry.entries.get? hash with
  | none => simp [Entry.empty]
  | some entry =>
    have hbusy : entry.isIdle = false := by
      rw [Bool.eq_false_iff]
      intro hidle
      exact hp (h hash entry hg hidle)
    simp only [Option.isSome_some, Option.getD_some, true_iff]
    cases hc : entry.channel with
    | none => exact .inr (List.length_pos_iff.mpr (by simpa [Entry.isIdle, hc] using hbusy))
    | some channel => exact .inl rfl

end Traffic

end MarketFeed
