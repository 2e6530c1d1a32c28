import MarketFeed.Proofs.Registry.Traffic

/-!
# Waiters for one delivery

The ticket of a waiter for one delivery stays in the entry of its hash until something is delivered
to the hash. Pruning does not touch it, since an entry with a ticket is not idle, and unsubscribing
takes the channel only. The delivery stays with the ticket until the waiter takes it.
-/

namespace MarketFeed

variable {ν : Type}

namespace Registry

/-- The ticket waits on this hash and on no other one. -/
structure Holds (registry : Registry ν) (hash : String) (number : Nat) : Prop where
  waiting : registry.tickets[number]? = some .waiting
  listed : ∀ other, number ∈ registry.queue other ↔ hash = other

/-- The tickets that wait were all given out. -/
def Numbered (registry : Registry ν) : Prop :=
  ∀ hash, ∀ number ∈ registry.queue hash, number < registry.tickets.length

end Registry

namespace Traffic

open Registry

/-- All that a step can do to the tickets. -/
inductive TicketEffect (traffic : Traffic ν) : Step ν → Registry ν → Prop
  | untouched {step : Step ν} {after : Registry ν}
      (hd : ∀ hash, traffic.delivery? hash step = none)
      (hq : ∀ hash, after.queue hash = traffic.registry.queue hash)
      (ht : after.tickets = traffic.registry.tickets) : TicketEffect traffic step after
  | issued {hash : String} {after : Registry ν}
      (hq : ∀ other, after.queue other = if hash = other
        then traffic.registry.queue other ++ [traffic.registry.tickets.length]
        else traffic.registry.queue other)
      (ht : after.tickets = traffic.registry.tickets ++ [Ticket.waiting]) :
      TicketEffect traffic (.register hash .oneShot) after
  | delivered {step : Step ν} {hash : String} {delivery : Delivery ν} {after : Registry ν}
      (hd : ∀ other, traffic.delivery? other step = if hash = other then some delivery else none)
      (hq : ∀ other, after.queue other =
        if hash = other then [] else traffic.registry.queue other)
      (ht : ∀ number, after.tickets[number]? = if number ∈ traffic.registry.queue hash
        then traffic.registry.tickets[number]?.map (Ticket.given delivery)
        else traffic.registry.tickets[number]?) : TicketEffect traffic step after
  | dropped {waiter : Waiter} {after : Registry ν}
      (hq : ∀ hash, after.queue hash = traffic.registry.queue hash)
      (hl : after.tickets.length = traffic.registry.tickets.length)
      (ht : ∀ number, waiter.claim ≠ .ticket (some number) →
        after.tickets[number]? = traffic.registry.tickets[number]?) :
      TicketEffect traffic (.drop waiter) after

variable {traffic : Traffic ν} {hash : String} {number : Nat} {delivery : Delivery ν}
  {step : Step ν} {waiter : Waiter} {handle : Handle} {moments : List (Moment ν)}

/-- The waiter is not dropped. -/
def Spares (waiter : Waiter) (moments : List (Moment ν)) : Prop :=
  ∀ dropped, .step (.drop dropped) ∈ moments → dropped.claim ≠ waiter.claim

/-- The holder of the waiter may ask, or has asked and goes on waiting. -/
def Asks (waiter : Waiter) (handle : Handle) : Prop :=
  handle = .idle waiter ∨ handle = .waiting waiter

/-- The replies to so many requests from a delivery on: the first one gets it. -/
def repliesFrom (delivery : Delivery ν) (waiter : Waiter) : Nat → List (Reply ν)
  | 0 => []
  | more + 1 => .delivery delivery ::
      List.replicate more (.delivery (.error (noLongerRegistered waiter)))

lemma ticketEffect (traffic : Traffic ν) (step : Step ν) :
    TicketEffect traffic step (traffic.after step).registry := by
  cases step with
  | register hash kind =>
    cases kind with
    | oneShot => exact .issued (queue_register_oneShot _ hash) rfl
    | persistent =>
      exact .untouched (fun _ => rfl) (queue_register_persistent _ hash)
        (register_persistent _ hash).1
  | settle hash delivery =>
    exact .delivered (fun _ => rfl) (fun other => queue_deliver ..) fun number => tickets_deliver ..
  | unsubscribe hash =>
    exact .untouched (fun _ => rfl) (queue_dropChannel _ hash) (tickets_dropChannel ..)
  | rejectAll fault => exact .untouched (fun _ => rfl) (fun _ => rfl) rfl
  | prune hash =>
    rw [after]
    split_ifs
    · exact .untouched (fun _ => rfl) (queue_removeIfIdle _ hash) (tickets_removeIfIdle ..)
    · exact .untouched (fun _ => rfl) (fun _ => rfl) rfl
  | remove index =>
    rw [after]
    split
    · rename_i hash fault hr
      exact .delivered (fun other => by rw [delivery?_remove, hr]; rfl)
        (fun other => queue_rejectAndRemove ..) fun number => tickets_rejectAndRemove ..
    · rename_i hr
      exact .untouched (fun hash => by rw [delivery?_remove, hr]; rfl) (fun _ => rfl) rfl
  | drop waiter =>
    exact .dropped (queue_discard _ waiter) (length_tickets_discard ..) fun number hn =>
      tickets_discard hn

/-! The ticket from its issue on. -/

lemma numbered_quiet_empty : (quiet (Registry.empty : Registry ν)).registry.Numbered := by
  intro hash number hm
  exact absurd hm (List.not_mem_nil)

lemma issued_after (traffic : Traffic ν) (step : Step ν) :
    traffic.registry.tickets.length ≤ (traffic.after step).registry.tickets.length := by
  have heffect := ticketEffect traffic step
  generalize (traffic.after step).registry = after at heffect
  cases heffect with
  | untouched _ _ ht => exact Nat.le_of_eq (congrArg List.length ht.symm)
  | issued _ ht =>
    rw [ht, List.length_append]
    exact Nat.le_add_right ..
  | @delivered _ hash _ _ _ _ ht =>
    refine Nat.le_of_not_lt fun hless => ?_
    have hnone : after.tickets[after.tickets.length]? = none := List.getElem?_eq_none (Nat.le_refl _)
    rw [ht, List.getElem?_eq_getElem hless] at hnone
    split_ifs at hnone
    exact absurd hnone (by simp)
  | dropped _ hl => exact Nat.le_of_eq hl.symm

lemma numbered_after (h : traffic.registry.Numbered) (step : Step ν) :
    (traffic.after step).registry.Numbered := by
  have hissued := issued_after traffic step
  have heffect := ticketEffect traffic step
  generalize (traffic.after step).registry = after at heffect hissued
  have hold : ∀ hash, ∀ number ∈ traffic.registry.queue hash, number < after.tickets.length :=
    fun hash number hm => Nat.lt_of_lt_of_le (h hash number hm) hissued
  intro hash number hm
  cases heffect with
  | untouched _ hq => exact hold hash number (hq hash ▸ hm)
  | issued hq ht =>
    rw [hq] at hm
    split_ifs at hm
    · rcases List.mem_append.mp hm with hbefore | hnew
      · exact hold hash number hbefore
      · rw [List.mem_singleton.mp hnew, ht, List.length_append]
        exact Nat.lt_succ_self _
    · exact hold hash number hm
  | delivered _ hq =>
    rw [hq] at hm
    split_ifs at hm
    · exact absurd hm (List.not_mem_nil)
    · exact hold hash number hm
  | dropped hq => exact hold hash number (hq hash ▸ hm)

lemma numbered_run (h : traffic.registry.Numbered) (steps : List (Step ν)) :
    (traffic.run steps).registry.Numbered := by
  induction steps generalizing traffic with
  | nil => exact h
  | cons step rest ih => exact ih (numbered_after h step)

lemma holds_registered (h : traffic.registry.Numbered) (hash : String) :
    (traffic.after (.register hash .oneShot)).registry.Holds hash
      traffic.registry.tickets.length := by
  constructor
  · change (traffic.registry.tickets ++ [Ticket.waiting])[traffic.registry.tickets.length]? = _
    rw [List.getElem?_append_right (Nat.le_refl _), Nat.sub_self]
    rfl
  · intro other
    have hnew : traffic.registry.tickets.length ∉ traffic.registry.queue other :=
      fun hm => absurd (h other _ hm) (Nat.lt_irrefl _)
    change _ ∈ (traffic.registry.register hash .oneShot).2.queue other ↔ _
    rw [queue_register_oneShot]
    split_ifs with he
    · simp [he]
    · simp [he, hnew]

/-- A ticket that waits goes on waiting, unless its hash is delivered to or its holder drops it. -/
lemma holds_after (h : traffic.registry.Holds hash number)
    (hd : traffic.delivery? hash step = none)
    (hs : ∀ dropped, step = .drop dropped → dropped.claim ≠ .ticket (some number)) :
    (traffic.after step).registry.Holds hash number := by
  obtain ⟨hw, hlisted⟩ := h
  have heffect := ticketEffect traffic step
  generalize (traffic.after step).registry = after at heffect
  cases heffect with
  | untouched _ hq ht => exact ⟨ht ▸ hw, fun other => hq other ▸ hlisted other⟩
  | @issued own _ hq ht =>
    obtain ⟨hl, -⟩ := List.getElem?_eq_some_iff.mp hw
    refine ⟨?_, fun other => ?_⟩
    · rw [ht, List.getElem?_append_left hl]
      exact hw
    · rw [hq, ← hlisted other]
      split_ifs
      · simp [Nat.ne_of_lt hl]
      · rfl
  | @delivered _ own delivery _ hown hq ht =>
    have hne : own ≠ hash := by
      rintro rfl
      rw [hown, if_pos rfl] at hd
      exact absurd hd (by simp)
    refine ⟨?_, fun other => ?_⟩
    · rw [ht, if_neg fun hm => hne ((hlisted own).mp hm).symm]
      exact hw
    · rw [hq, ← hlisted other]
      split_ifs with he
      · subst he
        simp [hlisted, Ne.symm hne]
      · rfl
  | dropped hq _ ht => exact ⟨(ht number (hs _ rfl)).trans hw, fun other => hq other ▸ hlisted other⟩

lemma delivered_of_holds (h : traffic.registry.Holds hash number)
    (hd : traffic.delivery? hash step = some delivery) :
    (traffic.after step).registry.tickets[number]? = some (.delivered delivery) := by
  obtain ⟨hw, hlisted⟩ := h
  have heffect := ticketEffect traffic step
  generalize (traffic.after step).registry = after at heffect
  cases heffect with
  | untouched hnone => exact absurd ((hnone hash).symm.trans hd) (by simp)
  | issued => exact absurd hd (by simp [delivery?])
  | @delivered _ own given _ hown _ ht =>
    rw [hown] at hd
    split_ifs at hd with he
    obtain rfl := Option.some.inj hd
    subst he
    rw [ht, if_pos ((hlisted own).mpr rfl), hw]
    rfl
  | dropped => exact absurd hd (by simp [delivery?])

/-- A delivery that came to a ticket stays with it, unless the holder drops it. -/
lemma delivered_after (h : traffic.registry.tickets[number]? = some (.delivered delivery))
    (hs : ∀ dropped, step = .drop dropped → dropped.claim ≠ .ticket (some number)) :
    (traffic.after step).registry.tickets[number]? = some (.delivered delivery) := by
  have heffect := ticketEffect traffic step
  generalize (traffic.after step).registry = after at heffect
  cases heffect with
  | untouched _ _ ht => exact ht ▸ h
  | issued _ ht =>
    obtain ⟨hl, -⟩ := List.getElem?_eq_some_iff.mp h
    rw [ht, List.getElem?_append_left hl]
    exact h
  | delivered _ _ ht =>
    rw [ht, h]
    split_ifs <;> rfl
  | dropped _ _ ht => exact (ht number (hs _ rfl)).trans h

/-! The replies to the holder. -/

lemma Spares.of_cons {moment : Moment ν} (h : Spares waiter (moment :: moments)) :
    Spares waiter moments :=
  fun dropped hm => h dropped (List.mem_cons_of_mem _ hm)

lemma Spares.head (h : Spares waiter (.step step :: moments)) (dropped : Waiter)
    (hd : step = .drop dropped) : dropped.claim ≠ waiter.claim :=
  h dropped (hd ▸ List.mem_cons_self ..)

variable {registry : Registry ν}

lemma await_waiting (ha : Asks ⟨hash, .ticket (some number)⟩ handle)
    (h : registry.tickets[number]? = some .waiting) :
    handle.await registry = (.pending, .waiting ⟨hash, .ticket (some number)⟩) := by
  have ht : registry.take ⟨hash, .ticket (some number)⟩ =
      (.nothingYet, ⟨hash, .ticket (some number)⟩) := by
    rw [take]
    dsimp only
    rw [h]
  rcases ha with rfl | rfl
  · rw [Handle.await, ht]
  · rw [Handle.await, ht]

lemma await_delivered (ha : Asks ⟨hash, .ticket (some number)⟩ handle)
    (h : registry.tickets[number]? = some (.delivered delivery)) :
    handle.await registry = (.delivery delivery, .idle ⟨hash, .ticket none⟩) := by
  have ht : registry.take ⟨hash, .ticket (some number)⟩ =
      (.delivery delivery, ⟨hash, .ticket none⟩) := by
    rw [take]
    dsimp only
    rw [h]
  rcases ha with rfl | rfl
  · rw [Handle.await, ht]
  · rw [Handle.await, ht]

/-- A waiter that has had its delivery is told that nothing more will come. -/
lemma replies_spent (traffic : Traffic ν) (hash : String) (moments : List (Moment ν)) :
    traffic.replies (.idle ⟨hash, .ticket none⟩) moments =
      List.replicate (polls moments)
        (.delivery (.error (noLongerRegistered ⟨hash, .ticket none⟩))) := by
  induction moments generalizing traffic with
  | nil => rfl
  | cons moment rest ih =>
    cases moment with
    | step step => exact ih _
    | poll => exact congrArg (List.cons _) (ih _)

lemma replies_delivered (h : traffic.registry.tickets[number]? = some (.delivered delivery))
    (ha : Asks ⟨hash, .ticket (some number)⟩ handle)
    (hs : Spares ⟨hash, .ticket (some number)⟩ moments) : traffic.replies handle moments =
      repliesFrom delivery ⟨hash, .ticket (some number)⟩ (polls moments) := by
  induction moments generalizing traffic with
  | nil => rfl
  | cons moment rest ih =>
    cases moment with
    | step step => exact ih (delivered_after h hs.head) hs.of_cons
    | poll =>
      rw [replies, await_delivered ha h, replies_spent]
      rfl

/-- Until something is delivered to its hash the waiter waits. -/
lemma replies_undelivered {early : List (Moment ν)} (h : traffic.registry.Holds hash number)
    (ha : Asks ⟨hash, .ticket (some number)⟩ handle) (hd : traffic.deliveries hash early = [])
    (hs : Spares ⟨hash, .ticket (some number)⟩ early) :
    (traffic.passAll early).registry.Holds hash number ∧
      ∃ next, Asks ⟨hash, .ticket (some number)⟩ next ∧ ∀ late,
        traffic.replies handle (early ++ late) =
          List.replicate (polls early) .pending ++ (traffic.passAll early).replies next late := by
  induction early generalizing traffic handle with
  | nil => exact ⟨h, handle, ha, fun _ => rfl⟩
  | cons moment rest ih =>
    cases moment with
    | step step =>
      obtain ⟨hnone, hrest⟩ := List.append_eq_nil_iff.mp hd
      exact ih (holds_after h (by simpa using hnone) hs.head) ha hrest hs.of_cons
    | poll =>
      obtain ⟨hlast, next, hnext, hreplies⟩ := ih h (.inr rfl) hd hs.of_cons
      refine ⟨hlast, next, hnext, fun late => ?_⟩
      rw [List.cons_append, replies, await_waiting ha h.waiting, hreplies]
      rfl

/-- Whatever other callers do between the steps of each other, a waiter for one delivery stays
entered under its hash until something is delivered to this hash, and is told to wait. From then on
it gets this delivery once and is told afterwards that nothing more will come. In all of this a hash
that is not still to be pruned is there exactly if somebody may wait on it. -/
theorem one_shot_gets_first_delivery_once (before : List (Step ν)) (hash : String)
    (early : List (Moment ν)) :
    let joined := (quiet Registry.empty).run before
    let waiter := (joined.registry.register hash .oneShot).1
    let start := joined.after (.register hash .oneShot)
    let reached := start.passAll early
    (∀ other, other ∉ joined.prunes → (joined.registry.contains other = true ↔
      joined.registry.isPersistent other = true ∨ 0 < joined.registry.pendingOneShot other)) ∧
    (start.deliveries hash early = [] → Spares waiter early →
      start.replies (.idle waiter) early = List.replicate (polls early) .pending ∧
      (∃ number ∈ (reached.registry.entry hash).tickets, waiter.claim = .ticket (some number)) ∧
      ∀ step delivery late, reached.delivery? hash step = some delivery → Spares waiter late →
        start.replies (.idle waiter) (early ++ .step step :: late) =
          List.replicate (polls early) .pending ++ repliesFrom delivery waiter (polls late)) := by
  intro joined waiter start reached
  refine ⟨fun other => (tidy_run tidy_quiet_empty before).contains_iff, fun hd hs => ?_⟩
  have hstart : start.registry.Holds hash joined.registry.tickets.length :=
    holds_registered (numbered_run numbered_quiet_empty before) hash
  obtain ⟨hreached, next, hnext, hreplies⟩ := replies_undelivered hstart (.inl rfl) hd hs
  refine ⟨?_, ⟨_, (hreached.listed hash).mpr rfl, rfl⟩, fun step delivery late hstep hlate => ?_⟩
  · have hnone := hreplies []
    rw [List.append_nil] at hnone
    exact hnone.trans (List.append_nil _)
  · have hdelivered := delivered_of_holds hreached hstep
    have hlast := replies_delivered hdelivered hnext hlate
    refine (hreplies (.step step :: late)).trans ?_
    rw [replies, hlast]
    rfl

/-- A waiter registers between the two steps of settling its hash, when everything is already being
rejected. It outlives the second step of settling, an end of the subscription and a delivery to
another hash. Then it gets the rejection and no later delivery. -/
theorem waiter_between_steps_rejected_once (fault : Fault) :
    let before : List (Step Nat) := [.register "ohlcv" .oneShot, .register "ohlcv" .persistent,
      .rejectAll fault, .settle "ohlcv" (.ok 1)]
    let early : List (Moment Nat) := [.step (.prune "ohlcv"), .poll, .step (.unsubscribe "ohlcv"),
      .step (.prune "ohlcv"), .step (.settle "trades" (.ok 2)), .poll]
    let late : List (Moment Nat) := [.step (.settle "ohlcv" (.ok 3)), .poll, .poll]
    let joined := (quiet Registry.empty).run before
    let waiter := (joined.registry.register "ohlcv" .oneShot).1
    let start := joined.after (.register "ohlcv" .oneShot)
    joined.prunes = ["ohlcv"] ∧ start.deliveries "ohlcv" early = [] ∧
      Spares waiter early ∧ Spares waiter late ∧
      start.replies (.idle waiter) (early ++ .step (.remove 0) :: late) =
        [.pending, .pending, .delivery (.error fault),
          .delivery (.error (.connectionClosed "message hash 'ohlcv' is no longer registered"))] := by
  intro before early late joined waiter start
  have hearly : Spares waiter early := by
    intro dropped hm
    exact absurd hm (by simp [early])
  have hlate : Spares waiter late := by
    intro dropped hm
    exact absurd hm (by simp [late])
  obtain ⟨-, hgets⟩ := one_shot_gets_first_delivery_once before "ohlcv" early
  obtain ⟨-, -, hreplies⟩ := hgets rfl hearly
  exact ⟨rfl, rfl, hearly, hlate, hreplies (.remove 0) (.error fault) late rfl hlate⟩

end Traffic

end MarketFeed
