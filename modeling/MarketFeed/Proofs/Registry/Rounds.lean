import MarketFeed.Proofs.Registry.Settling

/-!
# Deliveries one after the other

Many deliveries may be made in a row, several of them to the same hash. Of those for its hash a
one-shot waiter gets the first one, and a persistent waiter finds the last one. Nobody finds what
was neither there before nor among them.
-/

namespace MarketFeed

variable {ν : Type}

/-- The one of several deliveries in a row that is left for a waiter of the kind. -/
def WaiterKind.pick {α : Type} : WaiterKind → List α → Option α
  | .oneShot, items => items.head?
  | .persistent, items => items.getLast?

/-- What of a round of deliveries goes to a hash. -/
def sentTo (hash : String) (given : List (String × Delivery ν)) : List (Delivery ν) :=
  given.filterMap fun (other, delivery) => if other = hash then some delivery else none

lemma sentTo_cons_self (hash : String) (delivery : Delivery ν)
    (rest : List (String × Delivery ν)) :
    sentTo hash ((hash, delivery) :: rest) = delivery :: sentTo hash rest :=
  List.filterMap_cons_some (if_pos rfl)

lemma sentTo_cons_of_ne {hash other : String} (h : other ≠ hash) (delivery : Delivery ν)
    (rest : List (String × Delivery ν)) :
    sentTo hash ((other, delivery) :: rest) = sentTo hash rest :=
  List.filterMap_cons_none (if_neg h)

lemma sentTo_append (hash : String) (early late : List (String × Delivery ν)) :
    sentTo hash (early ++ late) = sentTo hash early ++ sentTo hash late := List.filterMap_append ..

lemma sentTo_eq_nil {hash : String} {given : List (String × Delivery ν)}
    (h : hash ∉ given.map (·.1)) : sentTo hash given = [] := by
  refine List.filterMap_eq_nil_iff.mpr fun item hm => if_neg fun he => h ?_
  exact List.mem_map.mpr ⟨item, hm, he⟩

lemma sentTo_map {hashes : List String} (h : hashes.Nodup) (hash : String) (delivery : Delivery ν) :
    sentTo hash (hashes.map fun other => (other, delivery)) =
      if hash ∈ hashes then [delivery] else [] := by
  induction hashes with
  | nil => rfl
  | cons other rest ih =>
    obtain ⟨hnew, hrest⟩ := List.nodup_cons.mp h
    rw [List.map_cons]
    by_cases he : other = hash
    · subst he
      rw [sentTo_cons_self, ih hrest, if_neg hnew, if_pos (List.mem_cons_self ..)]
    · have hmem : hash ∈ other :: rest ↔ hash ∈ rest :=
        List.mem_cons.trans (or_iff_right (Ne.symm he))
      rw [sentTo_cons_of_ne he, ih hrest]
      simp only [hmem]

namespace Registry

def giveAll (registry : Registry ν) (given : List (String × Delivery ν)) : Registry ν :=
  given.foldl (fun registry (hash, delivery) => (registry.settle hash delivery).2) registry

/-- After a round of which these deliveries were for the waiter, it finds the one that is left of
them. If there were none, it waits as before. -/
def Gets (registry : Registry ν) (waiter : Waiter) (own : List (Delivery ν))
    (after : Registry ν) : Prop :=
  match waiter.kind.pick own with
  | some delivery => (after.take waiter).1 = .delivery delivery
  | none => registry.Spared waiter after

variable {registry middle after : Registry ν} {waiter : Waiter} {delivery : Delivery ν}
  {own : List (Delivery ν)} {hashes : List String}

lemma Spared.gets (h : registry.Spared waiter middle) (h' : middle.Gets waiter own after) :
    registry.Gets waiter own after := by
  unfold Gets at h' ⊢
  cases hp : waiter.kind.pick own with
  | none =>
    rw [hp] at h'
    exact h.trans h'
  | some delivery =>
    rw [hp] at h'
    exact h'

lemma take_of_gets (h : registry.Gets waiter [delivery] after) :
    (after.take waiter).1 = .delivery delivery := by
  unfold Gets at h
  cases hk : waiter.kind with
  | oneShot =>
    rw [hk] at h
    exact h
  | persistent =>
    rw [hk] at h
    exact h

lemma spared_of_gets (h : registry.Gets waiter [] after) : registry.Spared waiter after := by
  unfold Gets at h
  cases hk : waiter.kind with
  | oneShot =>
    rw [hk] at h
    exact h
  | persistent =>
    rw [hk] at h
    exact h

/-! One-shot waiters are done with the first delivery. -/

lemma Offers.giveAll_oneShot (h : registry.Offers waiter delivery) (hk : waiter.kind = .oneShot)
    (given : List (String × Delivery ν)) : (registry.giveAll given).Offers waiter delivery := by
  induction given generalizing registry with
  | nil => exact h
  | cons first rest ih => exact ih (h.settle_oneShot hk first.1 first.2)

/-! Persistent waiters go on waiting. -/

lemma Awaits.settle_persistent (h : registry.Awaits waiter) (hk : waiter.kind = .persistent)
    (hash : String) (delivery : Delivery ν) : (registry.settle hash delivery).2.Awaits waiter := by
  obtain ⟨own, claim⟩ := waiter
  cases claim with
  | ticket number => exact absurd hk (by simp [Waiter.kind])
  | receiver number seen =>
    obtain ⟨henters, hseen⟩ := h
    have hline : registry.line own = some number := henters
    refine ⟨(line_settle ..).trans hline, ?_⟩
    rintro number seen ⟨⟩ channel hchannel
    rw [content_settle] at hchannel
    split at hchannel
    · obtain ⟨before, hbefore, rfl⟩ := Option.map_eq_some_iff.mp hchannel
      rw [Channel.version_struck]
      exact Nat.le_succ_of_le (hseen number seen rfl before hbefore)
    · exact hseen number seen rfl channel hchannel

/-- What a round leaves for those who wait. -/
lemma gets_giveAll (hw : registry.Wired) (hq : registry.Queued) (h : registry.Awaits waiter)
    (given : List (String × Delivery ν)) :
    registry.Gets waiter (sentTo waiter.hash given) (registry.giveAll given) := by
  induction given generalizing registry with
  | nil =>
    unfold Gets
    cases waiter.kind <;> exact h.spared
  | cons first rest ih =>
    obtain ⟨hash, delivery⟩ := first
    have hleads := leads_settle registry hash delivery
    have hrest := ih (hleads.wired hw) (hleads.queued hq)
    by_cases hown : hash = waiter.hash
    · subst hown
      have hoffers := offers_settle hw h delivery
      rw [sentTo_cons_self]
      cases hk : waiter.kind with
      | oneShot =>
        unfold Gets
        rw [hk]
        exact take_of_offers (hoffers.giveAll_oneShot hk rest)
      | persistent =>
        have hlater := hrest (h.settle_persistent hk waiter.hash delivery)
        unfold Gets at hlater ⊢
        rw [hk, WaiterKind.pick] at hlater ⊢
        rw [List.getLast?_cons]
        -- the last one of the others, or this one if nothing else comes
        cases hlast : (sentTo waiter.hash rest).getLast? with
        | none =>
          rw [hlast] at hlater
          exact (congrArg Prod.fst hlater.take).trans (take_of_offers hoffers)
        | some later =>
          rw [hlast] at hlater
          exact hlater
    · rw [sentTo_cons_of_ne hown]
      have hspared := spared_settle hw hq h hown delivery
      exact hspared.gets (hrest hspared.awaits)

/-! What anybody finds, whether it waits or not. -/

lemma unseen?_of_take {hash : String} {number seen : Nat}
    (h : (registry.take ⟨hash, .receiver number seen⟩).1 = .delivery delivery) :
    ∃ channel, registry.content number = some channel ∧ channel.unseen? seen = some delivery := by
  rw [take_receiver] at h
  split at h
  · exact absurd h (by simp)
  · rename_i channel hcontent
    refine ⟨channel, hcontent, ?_⟩
    split at h
    · rename_i found hfound
      obtain rfl : found = delivery := Arrival.delivery.inj h
      exact hfound
    · split at h
      · exact absurd h (by simp)
      · exact absurd h (by simp)

lemma delivered_of_take {hash : String} {number : Nat}
    (h : (registry.take ⟨hash, .ticket (some number)⟩).1 = .delivery delivery) :
    registry.tickets[number]? = some (.delivered delivery) := by
  rw [take] at h
  dsimp only at h
  split at h
  · rename_i found hfound
    obtain rfl : found = delivery := Arrival.delivery.inj h
    exact hfound
  · exact absurd h (by simp)
  · exact absurd h (by simp)

lemma take_settle {hash : String} {other : Delivery ν}
    (h : ((registry.settle hash other).2.take waiter).1 = .delivery delivery) :
    (registry.take waiter).1 = .delivery delivery ∨ delivery = other := by
  obtain ⟨own, claim⟩ := waiter
  cases claim with
  | receiver number seen =>
    obtain ⟨channel, hcontent, hunseen⟩ := unseen?_of_take h
    rw [content_settle] at hcontent
    split at hcontent
    · -- the channel holds this delivery, whatever it held before
      obtain ⟨before, -, rfl⟩ := Option.map_eq_some_iff.mp hcontent
      rw [Channel.unseen?] at hunseen
      split at hunseen
      · exact absurd hunseen (by simp)
      · rw [Channel.latest_struck] at hunseen
        exact .inr (Option.some.inj hunseen).symm
    · exact .inl (take_of_unseen? hcontent hunseen)
  | ticket number =>
    cases number with
    | none => exact absurd h (by simp [take])
    | some number =>
      have hdelivered := delivered_of_take h
      rw [tickets_settle] at hdelivered
      split at hdelivered
      · obtain ⟨ticket, hticket, hgiven⟩ := Option.map_eq_some_iff.mp hdelivered
        cases ticket with
        | waiting => exact .inr (Ticket.delivered.inj hgiven).symm
        | delivered found =>
          obtain rfl : found = delivery := Ticket.delivered.inj hgiven
          have hoffers : registry.Offers ⟨own, .ticket (some number)⟩ found := hticket
          exact .inl (take_of_offers hoffers)
        | abandoned => exact absurd hgiven (by simp [Ticket.given])
      · have hoffers : registry.Offers ⟨own, .ticket (some number)⟩ delivery := hdelivered
        exact .inl (take_of_offers hoffers)

lemma take_giveAll {given : List (String × Delivery ν)}
    (h : ((registry.giveAll given).take waiter).1 = .delivery delivery) :
    (registry.take waiter).1 = .delivery delivery ∨ ∃ hash, (hash, delivery) ∈ given := by
  induction given generalizing registry with
  | nil => exact .inl h
  | cons first rest ih =>
    rcases ih h with hfirst | ⟨hash, hm⟩
    · refine (take_settle hfirst).imp_right fun he => ⟨first.1, ?_⟩
      rw [he]
      exact List.mem_cons_self ..
    · exact .inr ⟨hash, List.mem_cons_of_mem _ hm⟩

/-! The same delivery to many hashes. -/

def settleAll (registry : Registry ν) (hashes : List String) (delivery : Delivery ν) :
    Registry ν :=
  hashes.foldl (fun registry hash => (registry.settle hash delivery).2) registry

lemma Offers.settleAll (h : registry.Offers waiter delivery) (hashes : List String) :
    (registry.settleAll hashes delivery).Offers waiter delivery := by
  induction hashes generalizing registry with
  | nil => exact h
  | cons hash rest ih => exact ih (h.settle hash)

lemma giveAll_map (registry : Registry ν) (hashes : List String) (delivery : Delivery ν) :
    registry.giveAll (hashes.map fun hash => (hash, delivery)) =
      registry.settleAll hashes delivery := List.foldl_map

lemma spared_settleAll (hw : registry.Wired) (hq : registry.Queued) (h : registry.Awaits waiter)
    (hn : waiter.hash ∉ hashes) (delivery : Delivery ν) :
    registry.Spared waiter (registry.settleAll hashes delivery) := by
  have hgets := gets_giveAll hw hq h (hashes.map fun hash => (hash, delivery))
  have hnone : sentTo waiter.hash (hashes.map fun hash => (hash, delivery)) = [] :=
    sentTo_eq_nil (by simpa using hn)
  rw [hnone, giveAll_map] at hgets
  exact spared_of_gets hgets

/-- A delivery to many hashes reaches those who wait on one of them. -/
lemma offers_settleAll (hw : registry.Wired) (hq : registry.Queued) (h : registry.Awaits waiter)
    (hm : waiter.hash ∈ hashes) (delivery : Delivery ν) :
    (registry.settleAll hashes delivery).Offers waiter delivery := by
  induction hashes generalizing registry with
  | nil => exact absurd hm List.not_mem_nil
  | cons hash rest ih =>
    -- what reaches the waiter is kept through the rest, and what comes before passes it by
    by_cases hown : hash = waiter.hash
    · subst hown
      exact (offers_settle hw h delivery).settleAll rest
    · have hleads := leads_settle registry hash delivery
      have hrest := (List.mem_cons.mp hm).resolve_left (Ne.symm hown)
      exact ih (hleads.wired hw) (hleads.queued hq) (spared_settle hw hq h hown delivery).awaits
        hrest

end Registry

end MarketFeed
