import MarketFeed.Proofs.Registry.Ending

/-!
# Who a delivery reaches

A delivery to a hash reaches every waiter that is entered under it, and no other one. If everything
is rejected, the rejection reaches everybody who is entered.
-/

namespace MarketFeed

variable {ν : Type}

namespace Registry

/-- Every ticket that waits was given out, and waits on one hash only. -/
structure Queued (registry : Registry ν) : Prop where
  numbered : registry.Numbered
  apart : ∀ hash other number, number ∈ registry.queue hash → number ∈ registry.queue other →
    hash = other

/-- The waiter is entered under its hash, and has seen no more than was sent. -/
structure Awaits (registry : Registry ν) (waiter : Waiter) : Prop where
  enters : registry.Enters waiter
  seen : ∀ number seen, waiter.claim = .receiver number seen →
    ∀ channel, registry.content number = some channel → seen ≤ channel.version

/-- The delivery is the next one that the waiter will find. -/
def Offers (registry : Registry ν) (waiter : Waiter) (delivery : Delivery ν) : Prop :=
  match waiter.claim with
  | .receiver number seen => registry.line waiter.hash = some number ∧
      ∃ channel, registry.content number = some channel ∧ channel.latest = some delivery ∧
        seen < channel.version
  | .ticket (some number) => registry.tickets[number]? = some (.delivered delivery)
  | .ticket none => False

variable {registry after : Registry ν} {hash : String} {waiter : Waiter} {delivery : Delivery ν}
  {drops : List Waiter} {joins : List String}

lemma queued_empty : (empty : Registry ν).Queued :=
  ⟨Traffic.numbered_quiet_empty, fun _ _ _ hm => absurd hm List.not_mem_nil⟩

/-! A delivery to one hash. -/

lemma settle_snd (registry : Registry ν) (hash : String) (delivery : Delivery ν) :
    (registry.settle hash delivery).2 =
      (registry.deliver hash delivery).2.removeIfIdle hash := by
  cases hg : registry.entries.get? hash with
  | none => rw [settle, deliver_of_none hg, removeIfIdle, hg, if_neg (by simp)]
  | some entry => rw [settle, deliver, hg]

lemma queue_settle (registry : Registry ν) (hash other : String) (delivery : Delivery ν) :
    (registry.settle hash delivery).2.queue other =
      if hash = other then [] else registry.queue other := by
  rw [settle_snd, queue_removeIfIdle, queue_deliver]

lemma tickets_settle (registry : Registry ν) (hash : String) (number : Nat)
    (delivery : Delivery ν) : (registry.settle hash delivery).2.tickets[number]? =
      if number ∈ registry.queue hash then registry.tickets[number]?.map (Ticket.given delivery)
      else registry.tickets[number]? := by
  rw [settle_snd, tickets_removeIfIdle, tickets_deliver]

lemma line_settle (registry : Registry ν) (hash other : String) (delivery : Delivery ν) :
    (registry.settle hash delivery).2.line other = registry.line other := by
  rw [settle_snd, line_removeIfIdle, line_deliver]

lemma content_settle (registry : Registry ν) (hash : String) (number : Nat)
    (delivery : Delivery ν) : (registry.settle hash delivery).2.content number =
      if registry.line hash = some number
      then (registry.content number).map (.struck (some delivery) false)
      else registry.content number := by
  rw [settle_snd, content_congr (channels_removeIfIdle ..), content_deliver]

end Registry

namespace Traffic

open Registry

variable {traffic : Traffic ν}

lemma queued_after (h : traffic.registry.Queued) (step : Step ν) :
    (traffic.after step).registry.Queued := by
  refine ⟨numbered_after h.numbered step, ?_⟩
  have heffect := ticketEffect traffic step
  generalize (traffic.after step).registry = after at heffect
  intro hash other number hm hm'
  cases heffect with
  | untouched _ hq => exact h.apart hash other number (hq hash ▸ hm) (hq other ▸ hm')
  | dropped hq => exact h.apart hash other number (hq hash ▸ hm) (hq other ▸ hm')
  | delivered _ hq =>
    rw [hq] at hm hm'
    split_ifs at hm hm'
    · exact absurd hm List.not_mem_nil
    · exact absurd hm List.not_mem_nil
    · exact absurd hm' List.not_mem_nil
    · exact h.apart hash other number hm hm'
  | @issued own _ hq =>
    -- the ticket that is issued waits nowhere else
    have hnew : ∀ key, traffic.registry.tickets.length ∉ traffic.registry.queue key := fun key hk =>
      absurd (h.numbered key _ hk) (Nat.lt_irrefl _)
    have hread : ∀ key, number ∈ after.queue key → number ∈ traffic.registry.queue key ∨
        own = key ∧ number = traffic.registry.tickets.length := by
      intro key hk
      rw [hq] at hk
      split_ifs at hk with he
      · exact (List.mem_append.mp hk).imp_right fun hk => ⟨he, List.mem_singleton.mp hk⟩
      · exact .inl hk
    rcases hread hash hm with hold | ⟨rfl, rfl⟩
    · rcases hread other hm' with hold' | ⟨rfl, rfl⟩
      · exact h.apart hash other number hold hold'
      · exact absurd hold (hnew _)
    · rcases hread other hm' with hold' | ⟨rfl, -⟩
      · exact absurd hold' (hnew _)
      · rfl

lemma queued_run (h : traffic.registry.Queued) (steps : List (Step ν)) :
    (traffic.run steps).registry.Queued := by
  induction steps generalizing traffic with
  | nil => exact h
  | cons step rest ih => exact ih (queued_after h step)

end Traffic

namespace Registry

open Traffic

variable {registry after : Registry ν} {hash : String} {waiter : Waiter} {delivery : Delivery ν}
  {drops : List Waiter} {joins : List String} {hashes : List String}

lemma Leads.queued (h : registry.Leads drops joins after) (hq : registry.Queued) :
    after.Queued := by
  obtain ⟨steps, hrun, -⟩ := h
  have hqueued : ((quiet registry).run steps).registry.Queued := queued_run hq steps
  rw [hrun] at hqueued
  exact hqueued

/-- What a persistent waiter finds is in the content of its channel. -/
lemma take_receiver (registry : Registry ν) (hash : String) (number seen : Nat) :
    registry.take ⟨hash, .receiver number seen⟩ =
      match registry.content number with
      | none => (.over, ⟨hash, .receiver number seen⟩)
      | some channel =>
        match channel.unseen? seen with
        | some delivery => (.delivery delivery, ⟨hash, .receiver number channel.version⟩)
        | none => (if channel.isOpen then .nothingYet else .over, ⟨hash, .receiver number seen⟩) := by
  unfold take content
  dsimp only
  cases registry.channels[number]? <;> rfl

lemma take_of_unseen? {number seen : Nat} {channel : Channel ν}
    (hc : registry.content number = some channel) (hu : channel.unseen? seen = some delivery) :
    (registry.take ⟨hash, .receiver number seen⟩).1 = .delivery delivery := by
  rw [take_receiver, hc]
  dsimp only
  rw [hu]

lemma take_of_offers (h : registry.Offers waiter delivery) :
    (registry.take waiter).1 = .delivery delivery := by
  obtain ⟨hash, claim⟩ := waiter
  cases claim with
  | receiver number seen =>
    obtain ⟨-, channel, hcontent, hlatest, hseen⟩ := h
    have hunseen : channel.unseen? seen = some delivery := by
      rw [Channel.unseen?, if_neg (Nat.ne_of_gt hseen), hlatest]
    exact take_of_unseen? hcontent hunseen
  | ticket number =>
    cases number with
    | none => exact h.elim
    | some number =>
      have hdelivered : registry.tickets[number]? = some (.delivered delivery) := h
      rw [take]
      dsimp only
      rw [hdelivered]

lemma offers_settle (hw : registry.Wired) (h : registry.Awaits waiter) (delivery : Delivery ν) :
    (registry.settle waiter.hash delivery).2.Offers waiter delivery := by
  obtain ⟨hash, claim⟩ := waiter
  obtain ⟨henters, hseen⟩ := h
  cases claim with
  | receiver number seen =>
    have hline : registry.line hash = some number := henters
    obtain ⟨channel, hcontent, -⟩ := hw.isOpen hash number hline
    refine ⟨(line_settle ..).trans hline, channel.struck (some delivery) false, ?_, ?_, ?_⟩
    · rw [content_settle, if_pos hline, hcontent]
      rfl
    · rw [Channel.latest_struck]
      rfl
    · rw [Channel.version_struck]
      exact Nat.lt_succ_of_le (hseen number seen rfl channel hcontent)
  | ticket number =>
    cases number with
    | none => exact henters.elim
    | some number =>
      obtain ⟨hm, hwaiting⟩ := henters
      change (registry.settle hash delivery).2.tickets[number]? = _
      rw [tickets_settle, if_pos hm, hwaiting]
      rfl

/-- A one-shot waiter keeps what it has got. -/
lemma Offers.settle_oneShot (h : registry.Offers waiter delivery) (hk : waiter.kind = .oneShot)
    (hash : String) (other : Delivery ν) :
    (registry.settle hash other).2.Offers waiter delivery := by
  obtain ⟨own, claim⟩ := waiter
  cases claim with
  | receiver number seen => exact absurd hk (by simp [Waiter.kind])
  | ticket number =>
    cases number with
    | none => exact h.elim
    | some number =>
      have hdelivered : registry.tickets[number]? = some (.delivered delivery) := h
      change (registry.settle hash other).2.tickets[number]? = _
      rw [tickets_settle, hdelivered]
      split <;> rfl

/-- A waiter that a delivery has reached keeps it when it goes to other hashes, or to the same one
again. -/
lemma Offers.settle (h : registry.Offers waiter delivery) (hash : String) :
    (registry.settle hash delivery).2.Offers waiter delivery := by
  obtain ⟨own, claim⟩ := waiter
  cases claim with
  | receiver number seen =>
    obtain ⟨hline, channel, hcontent, hlatest, hseen⟩ := h
    refine ⟨(line_settle ..).trans hline, ?_⟩
    rw [content_settle, hcontent]
    split
    · refine ⟨channel.struck (some delivery) false, rfl, ?_, ?_⟩
      · rw [Channel.latest_struck]
        rfl
      · rw [Channel.version_struck]
        exact Nat.lt_succ_of_lt hseen
    · exact ⟨channel, rfl, hlatest, hseen⟩
  | ticket number => exact h.settle_oneShot rfl hash delivery

/-- The waiter waits as before, and finds the same. -/
structure Spared (registry : Registry ν) (waiter : Waiter) (after : Registry ν) : Prop where
  awaits : after.Awaits waiter
  take : after.take waiter = registry.take waiter

lemma Awaits.spared (h : registry.Awaits waiter) : registry.Spared waiter registry := ⟨h, rfl⟩

lemma Spared.trans {middle : Registry ν} (h : registry.Spared waiter middle)
    (h' : middle.Spared waiter after) : registry.Spared waiter after :=
  ⟨h'.awaits, h'.take.trans h.take⟩

lemma spared_settle (hw : registry.Wired) (hq : registry.Queued) (h : registry.Awaits waiter)
    (hn : hash ≠ waiter.hash) (delivery : Delivery ν) :
    registry.Spared waiter (registry.settle hash delivery).2 := by
  obtain ⟨own, claim⟩ := waiter
  obtain ⟨henters, hseen⟩ := h
  cases claim with
  | receiver number seen =>
    have hline : registry.line own = some number := henters
    have hother : registry.line hash ≠ some number := fun hl =>
      hn (hw.apart hash own number hl hline)
    have hcontent : (registry.settle hash delivery).2.content number = registry.content number := by
      rw [content_settle, if_neg hother]
    refine ⟨⟨(line_settle ..).trans hline, ?_⟩, ?_⟩
    · rintro number seen ⟨⟩ channel hchannel
      exact hseen number seen rfl channel (hcontent ▸ hchannel)
    · rw [take_receiver, take_receiver, hcontent]
  | ticket number =>
    cases number with
    | none => exact henters.elim
    | some number =>
      obtain ⟨hm, hwaiting⟩ := henters
      have hother : number ∉ registry.queue hash := fun hq' =>
        hn (hq.apart hash own number hq' hm)
      have htickets : (registry.settle hash delivery).2.tickets[number]? =
          registry.tickets[number]? := by
        rw [tickets_settle, if_neg hother]
      refine ⟨⟨⟨?_, htickets.trans hwaiting⟩, fun _ _ hc => absurd hc (by simp)⟩, ?_⟩
      · rw [queue_settle, if_neg hn]
        exact hm
      · rw [take, take]
        dsimp only
        rw [htickets]

/-! Everything is rejected. -/

lemma take_rejectAll (hw : registry.Wired) (h : registry.Awaits waiter) (fault : Fault) :
    ((registry.rejectAll fault).2.take waiter).1 = .delivery (.error fault) := by
  have hends := endsWith_rejectAll hw h.enters fault
  obtain ⟨hash, claim⟩ := waiter
  obtain ⟨henters, hseen⟩ := h
  cases claim with
  | receiver number seen =>
    have hline : registry.line hash = some number := henters
    obtain ⟨channel, hcontent, -⟩ := hw.isOpen hash number hline
    have hended := content_rejectAll hw hline fault
    rw [hcontent] at hended
    refine take_of_unseen? hended ?_
    have hnew : (channel.struck (some (.error fault)) true).version ≠ seen := by
      rw [Channel.version_struck]
      exact Nat.ne_of_gt (Nat.lt_succ_of_le (hseen number seen rfl channel hcontent))
    rw [Channel.unseen?, if_neg hnew, Channel.latest_struck]
    rfl
  | ticket number =>
    cases number with
    | none => exact henters.elim
    | some number =>
      have hoffers : (registry.rejectAll fault).2.Offers ⟨hash, .ticket (some number)⟩
          (.error fault) := hends
      exact take_of_offers hoffers

end Registry

end MarketFeed
