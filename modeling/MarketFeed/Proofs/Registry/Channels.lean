import MarketFeed.Proofs.Registry.Traffic

/-!
# What happens to channels

The entry of a hash names the channel of its persistent waiters. Deliveries to the hash go to the
channel that the entry names at the time. A channel that has ended is named by no entry any more,
and the next persistent waiter on the hash brings a channel of its own.
-/

namespace MarketFeed

variable {ν : Type}

namespace Channel

/-- A channel but for the number of its receivers. -/
def content (channel : Channel ν) : Channel ν := { channel with receivers := 0 }

/-- The channel after a delivery, if there is one, and its end, if it ends with that. -/
def struck (delivery : Option (Delivery ν)) (ends : Bool) (channel : Channel ν) : Channel ν :=
  let sent := delivery.elim channel channel.send
  if ends then sent.close else sent

lemma isOpen_struck (delivery : Option (Delivery ν)) (ends : Bool) (channel : Channel ν) :
    (channel.struck delivery ends).isOpen = (channel.isOpen && !ends) := by
  cases delivery <;> cases ends <;> simp [struck, send, close]

lemma version_struck (delivery : Option (Delivery ν)) (ends : Bool) (channel : Channel ν) :
    (channel.struck delivery ends).version = channel.version + delivery.toList.length := by
  cases delivery <;> cases ends <;> rfl

lemma latest_struck (delivery : Option (Delivery ν)) (ends : Bool) (channel : Channel ν) :
    (channel.struck delivery ends).latest = delivery.or channel.latest := by
  cases delivery <;> cases ends <;> rfl

end Channel

namespace Registry

/-- The channel that the entry of a hash names. -/
def line (registry : Registry ν) (hash : String) : Option Nat := (registry.entry hash).channel

def content (registry : Registry ν) (number : Nat) : Option (Channel ν) :=
  (registry.channels[number]?).map Channel.content

variable {registry after : Registry ν} {hash other : String} {delivery : Delivery ν}
  {fault : Fault} {number : Nat} {change : Option Entry → Option Entry}

lemma Changes.line (h : registry.Changes hash change after) {f : Option Nat → Option Nat}
    (hf : ∀ entry, ((change entry).getD .empty).channel = f (entry.getD .empty).channel)
    (other : String) : after.line other =
      if hash = other then f (registry.line other) else registry.line other :=
  h.part Entry.channel hf other

lemma content_congr (h : after.channels = registry.channels) (number : Nat) :
    after.content number = registry.content number := by
  unfold content
  rw [h]

lemma lt_of_content {channel : Channel ν} (h : registry.content number = some channel) :
    number < registry.channels.length := by
  obtain ⟨found, hfound, -⟩ := Option.map_eq_some_iff.mp h
  exact (List.getElem?_eq_some_iff.mp hfound).1

lemma content_changeChannel (registry : Registry ν) (number other : Nat)
    (change after : Channel ν → Channel ν)
    (h : ∀ channel, (change channel).content = after channel.content) :
    (registry.changeChannel number change).content other =
      if number = other then (registry.content other).map after else registry.content other := by
  unfold content changeChannel
  dsimp only
  rw [List.getElem?_modify]
  cases registry.channels[other]? with
  | none => simp
  | some channel =>
    by_cases he : number = other
    · simp [he, h]
    · simp [he]

/-! Registering. -/

lemma line_register_oneShot (registry : Registry ν) (hash other : String) :
    (registry.register hash .oneShot).2.line other = registry.line other := by
  rw [(changes_register_oneShot registry hash).line (f := id) (fun _ => rfl), id, ite_self]

lemma register_persistent_of_line (h : registry.line hash = some number) :
    registry.register hash .persistent =
      (⟨hash, .receiver number ((registry.content number).elim 0 Channel.version)⟩,
        registry.changeChannel number .join) := by
  have hc : (registry.entry hash).channel = some number := h
  have hv : (registry.content number).elim 0 Channel.version =
      (registry.channels[number]?).elim 0 Channel.version := by
    unfold content
    cases registry.channels[number]? <;> rfl
  rw [hv]
  simp only [register, hc]

lemma register_persistent_of_none (h : registry.line hash = none) :
    registry.register hash .persistent = (⟨hash, .receiver registry.channels.length 0⟩,
      { registry with channels := registry.channels ++ [Channel.new] }.putEntry hash
        { registry.entry hash with channel := some registry.channels.length }) := by
  have hc : (registry.entry hash).channel = none := h
  simp only [register, hc]

lemma line_register_persistent (registry : Registry ν) (hash other : String) :
    (registry.register hash .persistent).2.line other =
      if hash = other then some ((registry.line hash).getD registry.channels.length)
      else registry.line other := by
  cases hl : registry.line hash with
  | none =>
    rw [register_persistent_of_none hl]
    unfold line entry putEntry
    dsimp only
    rw [Table.get?_insert]
    by_cases he : hash = other
    · simp [he]
    · simp [he]
  | some number =>
    rw [register_persistent_of_line hl]
    change registry.line other = _
    by_cases he : hash = other
    · simp [← he, hl]
    · simp [he]

lemma content_register_persistent (registry : Registry ν) (hash : String) (number : Nat) :
    (registry.register hash .persistent).2.content number =
      if registry.line hash = none ∧ number = registry.channels.length
      then some Channel.new.content else registry.content number := by
  cases hl : registry.line hash with
  | none =>
    rw [register_persistent_of_none hl]
    unfold content
    change ((registry.channels ++ [Channel.new])[number]?).map Channel.content = _
    rw [List.getElem?_append]
    by_cases hlt : number < registry.channels.length
    · simp [hlt, Nat.ne_of_lt hlt]
    · by_cases he : number = registry.channels.length
      · simp [he]
      · have hone : [(Channel.new : Channel ν)][number - registry.channels.length]? = none :=
          List.getElem?_eq_none (by simp only [List.length_singleton]; omega)
        simp [hlt, he, hone]
  | some joined =>
    rw [register_persistent_of_line hl]
    have hj := content_changeChannel registry joined number .join id fun _ => rfl
    simpa using hj

/-! Delivering. -/

lemma channels_handAll (registry : Registry ν) (numbers : List Nat) (delivery : Delivery ν) :
    (registry.handAll numbers delivery).2.channels = registry.channels := by
  rw [handAll_snd]
  induction numbers generalizing registry with
  | nil => rfl
  | cons number rest ih =>
    have hhand : (registry.hand number delivery).2.channels = registry.channels := by
      unfold hand
      split <;> rfl
    exact (ih _).trans hhand

lemma content_broadcast (registry : Registry ν) (channel : Option Nat) (delivery : Delivery ν)
    (number : Nat) : (registry.broadcast channel delivery).2.content number =
      if channel = some number then (registry.content number).map (·.send delivery)
      else registry.content number := by
  cases channel with
  | none => rfl
  | some sent =>
    unfold broadcast
    dsimp only
    rw [content_changeChannel registry sent number (·.send delivery) (·.send delivery)
      fun _ => rfl]
    simp

lemma content_deliverTo (registry : Registry ν) (entry : Entry) (delivery : Delivery ν)
    (number : Nat) : (registry.deliverTo entry delivery).2.content number =
      if entry.channel = some number then (registry.content number).map (·.send delivery)
      else registry.content number := by
  rw [deliverTo_snd, content_broadcast,
    content_congr (channels_handAll registry entry.tickets delivery)]

lemma line_deliver (registry : Registry ν) (hash other : String) (delivery : Delivery ν) :
    (registry.deliver hash delivery).2.line other = registry.line other := by
  rw [(changes_deliver registry hash delivery).line (f := id) (fun entry => ?_), id, ite_self]
  cases entry <;> rfl

lemma content_deliver (registry : Registry ν) (hash : String) (delivery : Delivery ν)
    (number : Nat) : (registry.deliver hash delivery).2.content number =
      if registry.line hash = some number
      then (registry.content number).map (.struck (some delivery) false)
      else registry.content number := by
  cases hg : registry.entries.get? hash with
  | none =>
    rw [deliver_of_none hg]
    simp [line, entry, hg, Entry.empty]
  | some entry =>
    have hl : registry.line hash = entry.channel := by simp [line, Registry.entry, hg]
    rw [deliver_of_some hg, hl]
    exact content_deliverTo registry entry delivery number

/-! Ending. -/

lemma content_closeChannel (registry : Registry ν) (channel : Option Nat) (number : Nat) :
    (registry.closeChannel channel).content number =
      if channel = some number then (registry.content number).map .close
      else registry.content number := by
  cases channel with
  | none => rfl
  | some closed =>
    unfold closeChannel
    rw [Option.elim_some,
      content_changeChannel registry closed number .close .close fun _ => rfl]
    simp

lemma line_rejectAndRemove (registry : Registry ν) (hash other : String) (fault : Fault) :
    (registry.rejectAndRemove hash fault).2.line other =
      if hash = other then none else registry.line other :=
  (changes_rejectAndRemove registry hash fault).line (f := fun _ => none) (fun _ => rfl) other

lemma content_rejectAndRemove (registry : Registry ν) (hash : String) (fault : Fault)
    (number : Nat) : (registry.rejectAndRemove hash fault).2.content number =
      if registry.line hash = some number
      then (registry.content number).map (.struck (some (.error fault)) true)
      else registry.content number := by
  cases hg : registry.entries.get? hash with
  | none =>
    rw [rejectAndRemove_of_none hg]
    simp [line, entry, hg, Entry.empty]
  | some entry =>
    have hl : registry.line hash = entry.channel := by simp [line, Registry.entry, hg]
    rw [rejectAndRemove_of_some hg, hl, content_closeChannel, content_deliverTo]
    by_cases hc : entry.channel = some number
    · rw [if_pos hc, if_pos hc, if_pos hc, Option.map_map]
      rfl
    · rw [if_neg hc, if_neg hc, if_neg hc]
      rfl

lemma line_removeIfIdle (registry : Registry ν) (hash other : String) :
    (registry.removeIfIdle hash).line other = registry.line other := by
  rw [(changes_removeIfIdle registry hash).line (f := id) (fun entry => ?_), id, ite_self]
  cases entry with
  | none => rfl
  | some entry =>
    rw [Option.filter_some]
    split_ifs with hi
    · rfl
    · have hidle : entry.channel = none ∧ entry.tickets = [] := by
        simpa [Entry.isIdle] using hi
      exact hidle.1.symm

lemma channels_removeIfIdle (registry : Registry ν) (hash : String) :
    (registry.removeIfIdle hash).channels = registry.channels := by
  unfold removeIfIdle
  split <;> rfl

lemma line_dropChannel (registry : Registry ν) (hash other : String) :
    (registry.dropChannel hash).2.line other =
      if hash = other then none else registry.line other := by
  apply (changes_dropChannel registry hash).line (f := fun _ => none)
  intro entry
  cases entry <;> rfl

lemma content_dropChannel (registry : Registry ν) (hash : String) (number : Nat) :
    (registry.dropChannel hash).2.content number =
      if registry.line hash = some number
      then (registry.content number).map (.struck none true) else registry.content number := by
  unfold dropChannel
  cases hg : registry.entries.get? hash with
  | none => simp [line, entry, hg, Entry.empty]
  | some entry =>
    have hl : registry.line hash = entry.channel := by simp [line, Registry.entry, hg]
    rw [hl]
    exact content_closeChannel registry entry.channel number

lemma line_discard (registry : Registry ν) (waiter : Waiter) (hash : String) :
    (registry.discard waiter).line hash = registry.line hash := by
  unfold line entry
  rw [entries_discard]

lemma content_discard (registry : Registry ν) (waiter : Waiter) (number : Nat) :
    (registry.discard waiter).content number = registry.content number := by
  unfold discard
  split
  · rfl
  · rfl
  · rename_i parted _ _
    have hp := content_changeChannel registry parted number .part id fun _ => rfl
    simpa using hp

/-- The channel that an entry names is open, and no other entry names it. -/
structure Wired (registry : Registry ν) : Prop where
  isOpen : ∀ hash number, registry.line hash = some number →
    ∃ channel, registry.content number = some channel ∧ channel.isOpen = true
  apart : ∀ hash other number, registry.line hash = some number →
    registry.line other = some number → hash = other

lemma Wired.line_ne_length (h : registry.Wired) (hash : String) :
    registry.line hash ≠ some registry.channels.length := by
  intro hl
  obtain ⟨channel, hc, -⟩ := h.isOpen hash _ hl
  exact absurd (lt_of_content hc) (Nat.lt_irrefl _)

/-- No other entry names the channel that those who join an entry listen to. -/
lemma Wired.line_ne_joined (h : registry.Wired) (hne : hash ≠ other) :
    registry.line other ≠ some ((registry.line hash).getD registry.channels.length) := by
  intro hline
  cases hjoined : registry.line hash with
  | none =>
    rw [hjoined] at hline
    exact h.line_ne_length other hline
  | some number =>
    rw [hjoined] at hline
    exact hne (h.apart hash other number hjoined hline)

lemma Wired.of_untouched (h : registry.Wired)
    (hl : ∀ hash, after.line hash = registry.line hash)
    (hc : ∀ number, after.content number = registry.content number) : after.Wired := by
  constructor
  · intro hash number hline
    rw [hc]
    exact h.isOpen hash number (hl hash ▸ hline)
  · intro hash other number hline hother
    exact h.apart hash other number (hl hash ▸ hline) (hl other ▸ hother)

/-- An entry is given a channel of its own, unless it has one. -/
lemma Wired.join (h : registry.Wired)
    (hl : ∀ other, after.line other = if hash = other
      then some ((registry.line hash).getD registry.channels.length) else registry.line other)
    (hc : ∀ number, after.content number =
      if registry.line hash = none ∧ number = registry.channels.length
      then some Channel.new.content else registry.content number) : after.Wired := by
  have hold : ∀ other number, registry.line other = some number →
      after.content number = registry.content number := by
    intro other number hline
    rw [hc, if_neg]
    rintro ⟨-, rfl⟩
    exact h.line_ne_length other hline
  have hjoined : after.line hash =
      some ((registry.line hash).getD registry.channels.length) := by
    rw [hl, if_pos rfl]
  have hothers : ∀ other, hash ≠ other → after.line other = registry.line other := by
    intro other hne
    rw [hl, if_neg hne]
  have hnew : ∀ other, hash ≠ other → after.line other ≠ after.line hash := by
    intro other hne
    rw [hothers other hne, hjoined]
    exact h.line_ne_joined hne
  constructor
  · intro other number hline
    by_cases he : hash = other
    · subst he
      rw [hjoined, Option.some.injEq] at hline
      cases hbefore : registry.line hash with
      | none =>
        rw [hbefore, Option.getD_none] at hline
        refine ⟨Channel.new.content, ?_, rfl⟩
        rw [hc, if_pos ⟨hbefore, hline.symm⟩]
      | some joined =>
        rw [hbefore, Option.getD_some] at hline
        rw [← hline, hold hash joined hbefore]
        exact h.isOpen hash joined hbefore
    · rw [hothers other he] at hline
      rw [hold other number hline]
      exact h.isOpen other number hline
  · intro first second number hfirst hsecond
    by_cases he : hash = first
    · by_cases he' : hash = second
      · exact he.symm.trans he'
      · exact absurd (hsecond.trans (he ▸ hfirst).symm) (hnew second he')
    · by_cases he' : hash = second
      · exact absurd (hfirst.trans (he' ▸ hsecond).symm) (hnew first he)
      · rw [hothers first he] at hfirst
        rw [hothers second he'] at hsecond
        exact h.apart first second number hfirst hsecond

/-- A channel gets a delivery or loses its entry. -/
lemma Wired.strike {sent : Option (Delivery ν)} {cut : Bool} (h : registry.Wired)
    (hl : ∀ other, after.line other =
      if cut = true ∧ hash = other then none else registry.line other)
    (hc : ∀ number, after.content number = if registry.line hash = some number
      then (registry.content number).map (.struck sent cut) else registry.content number) :
    after.Wired := by
  have hbefore : ∀ other number, after.line other = some number →
      registry.line other = some number ∧ ¬(cut = true ∧ hash = other) := by
    intro other number hline
    rw [hl] at hline
    split_ifs at hline with hcut
    exact ⟨hline, hcut⟩
  constructor
  · intro other number hline
    obtain ⟨hline, hcut⟩ := hbefore other number hline
    obtain ⟨channel, hchannel, hopen⟩ := h.isOpen other number hline
    rw [hc, hchannel]
    split_ifs with hown
    · have hsame : hash = other := h.apart hash other number hown hline
      refine ⟨_, rfl, ?_⟩
      rw [Channel.isOpen_struck, hopen]
      simpa using fun hended => hcut ⟨hended, hsame⟩
    · exact ⟨channel, rfl, hopen⟩
  · intro first second number hfirst hsecond
    exact h.apart first second number (hbefore first number hfirst).1
      (hbefore second number hsecond).1

end Registry

namespace Traffic

open Registry

/-- Whether a step ends the channel of a hash. -/
def ends (traffic : Traffic ν) (hash : String) : Step ν → Bool
  | .unsubscribe other => other = hash
  | .remove index => (traffic.removals[index]?).any (·.1 = hash)
  | _ => false

/-- All that a step can do to the channels. -/
inductive ChannelEffect (traffic : Traffic ν) : Step ν → Registry ν → Prop
  | untouched {step : Step ν} {after : Registry ν}
      (hd : ∀ hash, traffic.delivery? hash step = none)
      (he : ∀ hash, traffic.ends hash step = false)
      (hl : ∀ hash, after.line hash = traffic.registry.line hash)
      (hc : ∀ number, after.content number = traffic.registry.content number) :
      ChannelEffect traffic step after
  | joined {hash : String} {after : Registry ν}
      (hl : ∀ other, after.line other = if hash = other
        then some ((traffic.registry.line hash).getD traffic.registry.channels.length)
        else traffic.registry.line other)
      (hc : ∀ number, after.content number =
        if traffic.registry.line hash = none ∧ number = traffic.registry.channels.length
        then some Channel.new.content else traffic.registry.content number) :
      ChannelEffect traffic (.register hash .persistent) after
  | struck {step : Step ν} {after : Registry ν} (hash : String) (delivery : Option (Delivery ν))
      (cut : Bool)
      (hd : ∀ other, traffic.delivery? other step = if hash = other then delivery else none)
      (he : ∀ other, traffic.ends other step = (cut && decide (hash = other)))
      (hl : ∀ other, after.line other = if cut = true ∧ hash = other then none
        else traffic.registry.line other)
      (hc : ∀ number, after.content number = if traffic.registry.line hash = some number
        then (traffic.registry.content number).map (.struck delivery cut)
        else traffic.registry.content number) : ChannelEffect traffic step after

variable {traffic : Traffic ν} {hash : String} {number : Nat} {step : Step ν}

/-- In a rejection of all the next hash is rejected and loses its channel, if there is one left. -/
lemma channelEffect_remove (traffic : Traffic ν) (index : Nat) :
    ChannelEffect traffic (.remove index) (traffic.after (.remove index)).registry := by
  have hends : ∀ hash, traffic.ends hash (.remove index) =
      (traffic.removals[index]?).any (·.1 = hash) := fun _ => rfl
  rw [after]
  cases hr : traffic.removals[index]? with
  | none =>
    apply ChannelEffect.untouched
    · intro hash
      rw [delivery?_remove, hr]
      rfl
    · intro hash
      rw [hends, hr]
      rfl
    · exact fun _ => rfl
    · exact fun _ => rfl
  | some removal =>
    obtain ⟨hash, fault⟩ := removal
    apply ChannelEffect.struck hash (some (.error fault)) true
    · intro other
      rw [delivery?_remove, hr]
      rfl
    · intro other
      rw [hends, hr, Bool.true_and]
      rfl
    · intro other
      refine (line_rejectAndRemove traffic.registry hash other fault).trans ?_
      simp
    · exact content_rejectAndRemove _ hash fault

lemma channelEffect (traffic : Traffic ν) (step : Step ν) :
    ChannelEffect traffic step (traffic.after step).registry := by
  cases step with
  | register hash kind =>
    cases kind with
    | oneShot =>
      exact .untouched (fun _ => rfl) (fun _ => rfl) (line_register_oneShot _ hash)
        (content_congr rfl)
    | persistent =>
      exact .joined (line_register_persistent _ hash) (content_register_persistent _ hash)
  | settle hash delivery =>
    apply ChannelEffect.struck hash (some delivery) false
    · exact fun _ => rfl
    · exact fun _ => rfl
    · intro other
      rw [if_neg (by simp)]
      exact line_deliver ..
    · exact content_deliver _ hash delivery
  | unsubscribe hash =>
    apply ChannelEffect.struck hash none true
    · intro other
      rw [ite_self]
      rfl
    · intro other
      rw [Bool.true_and]
      rfl
    · intro other
      refine (line_dropChannel traffic.registry hash other).trans ?_
      simp
    · exact content_dropChannel _ hash
  | rejectAll fault =>
    exact .untouched (fun _ => rfl) (fun _ => rfl) (fun _ => rfl) (fun _ => rfl)
  | prune hash =>
    rw [after]
    split_ifs
    · exact .untouched (fun _ => rfl) (fun _ => rfl) (line_removeIfIdle _ hash)
        (content_congr (channels_removeIfIdle _ hash))
    · exact .untouched (fun _ => rfl) (fun _ => rfl) (fun _ => rfl) (fun _ => rfl)
  | remove index => exact traffic.channelEffect_remove index
  | drop waiter =>
    exact .untouched (fun _ => rfl) (fun _ => rfl) (line_discard _ waiter)
      (content_discard _ waiter)

lemma wired_quiet_empty : (quiet (Registry.empty : Registry ν)).registry.Wired := by
  constructor
  · intro hash number hl
    exact absurd hl (by simp [quiet, line, entry, Registry.empty, Entry.empty])
  · intro hash other number hl
    exact absurd hl (by simp [quiet, line, entry, Registry.empty, Entry.empty])

lemma wired_after (h : traffic.registry.Wired) (step : Step ν) :
    (traffic.after step).registry.Wired := by
  cases channelEffect traffic step with
  | untouched _ _ hl hc => exact h.of_untouched hl hc
  | joined hl hc => exact h.join hl hc
  | struck hash delivery cut _ _ hl hc => exact h.strike hl hc

lemma wired_run (h : traffic.registry.Wired) (steps : List (Step ν)) :
    (traffic.run steps).registry.Wired := by
  induction steps generalizing traffic with
  | nil => exact h
  | cons step rest ih => exact ih (wired_after h step)

end Traffic

end MarketFeed
