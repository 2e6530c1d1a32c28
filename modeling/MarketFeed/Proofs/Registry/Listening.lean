import MarketFeed.Proofs.Registry.Channels
import MarketFeed.Proofs.Registry.OneShot

/-!
# Waiters for every delivery

A persistent waiter is served by the channel that its hash has when it joins, until this channel
ends. When it asks, it gets the newest of the deliveries that it has not asked for yet. After the
end it gets what is left, and then it is told that nothing more will come, even if the hash has a
channel again.
-/

namespace MarketFeed

variable {ν : Type}

def Reply.isPending : Reply ν → Bool
  | .pending => true
  | _ => false

/-- A persistent waiter by what its channel has carried since it joined: what came before its last
request, what came after that, and whether more can come. -/
structure Listener (ν : Type) where
  heard : List (Delivery ν)
  unread : List (Delivery ν)
  isOpen : Bool

namespace Listener

def joined : Listener ν := ⟨[], [], true⟩

def sent (listener : Listener ν) : List (Delivery ν) := listener.heard ++ listener.unread

/-- The listener after a delivery, if there is one, and the end of its channel, if it ends. -/
def hears (delivery : Option (Delivery ν)) (ends : Bool) (listener : Listener ν) : Listener ν :=
  if listener.isOpen then
    { listener with unread := listener.unread ++ delivery.toList, isOpen := !ends }
  else listener

def asked (listener : Listener ν) : Listener ν := ⟨listener.sent, [], listener.isOpen⟩

def reply (waiter : Waiter) (listener : Listener ν) : Reply ν :=
  match listener.unread.getLast? with
  | some delivery => .delivery delivery
  | none =>
    if listener.isOpen then .pending else .delivery (.error (Registry.noLongerRegistered waiter))

/-- The replies to so many requests after the end of the channel. -/
def lastReplies (waiter : Waiter) (listener : Listener ν) (requests : Nat) : List (Reply ν) :=
  match listener.unread.getLast? with
  | some delivery => Traffic.repliesFrom delivery waiter requests
  | none => List.replicate requests (.delivery (.error (Registry.noLongerRegistered waiter)))

variable {listener : Listener ν}

lemma hears_of_open (h : listener.isOpen = true) (delivery : Option (Delivery ν)) (ends : Bool) :
    listener.hears delivery ends = ⟨listener.heard, listener.unread ++ delivery.toList, !ends⟩ := by
  simp [hears, h]

lemma hears_of_ended (h : listener.isOpen = false) (delivery : Option (Delivery ν)) (ends : Bool) :
    listener.hears delivery ends = listener := by
  simp [hears, h]

lemma hears_none (listener : Listener ν) : listener.hears none false = listener := by
  cases h : listener.isOpen with
  | true =>
    rw [hears_of_open h, Option.toList_none, List.append_nil, Bool.not_false, ← h]
  | false => exact hears_of_ended h none false

lemma lastReplies_succ (h : listener.isOpen = false) (waiter : Waiter) (requests : Nat) :
    listener.lastReplies waiter (requests + 1) =
      listener.reply waiter :: listener.asked.lastReplies waiter requests := by
  unfold lastReplies reply
  cases listener.unread.getLast? with
  | none => simp [asked, h, List.replicate_succ]
  | some delivery => simp [asked, Traffic.repliesFrom]

end Listener

namespace Traffic

open Registry

def hear (traffic : Traffic ν) (hash : String) (listener : Listener ν) : Moment ν → Listener ν
  | .step step => listener.hears (traffic.delivery? hash step) (traffic.ends hash step)
  | .poll => listener.asked

def hearAll (traffic : Traffic ν) (hash : String) (listener : Listener ν) :
    List (Moment ν) → Listener ν
  | [] => listener
  | moment :: rest => (traffic.pass moment).hearAll hash (traffic.hear hash listener moment) rest

/-- The replies that a listener on the hash of the waiter is due. -/
def told (traffic : Traffic ν) (waiter : Waiter) (listener : Listener ν) :
    List (Moment ν) → List (Reply ν)
  | [] => []
  | .step step :: rest =>
    (traffic.after step).told waiter (traffic.hear waiter.hash listener (.step step)) rest
  | .poll :: rest => listener.reply waiter :: traffic.told waiter listener.asked rest

/-- The waiter that has seen this version of the channel is such a listener on the hash. -/
structure Listens (registry : Registry ν) (hash : String) (number seen : Nat)
    (listener : Listener ν) : Prop where
  lined : ∀ other, registry.line other = some number ↔ listener.isOpen = true ∧ hash = other
  carried : ∃ channel, registry.content number = some channel ∧
    channel.isOpen = listener.isOpen ∧ channel.version = seen + listener.unread.length ∧
    ∀ delivery, listener.unread.getLast? = some delivery → channel.latest = some delivery

variable {traffic : Traffic ν} {registry : Registry ν} {hash : String} {number seen : Nat}
  {listener : Listener ν} {step : Step ν} {handle : Handle} {waiter : Waiter}
  {moments early late : List (Moment ν)}

/-! What a listener is due. -/

lemma told_append (early late : List (Moment ν)) : traffic.told waiter listener (early ++ late) =
    traffic.told waiter listener early ++
      (traffic.passAll early).told waiter (traffic.hearAll waiter.hash listener early) late := by
  induction early generalizing traffic listener with
  | nil => rfl
  | cons moment rest ih =>
    cases moment with
    | step step => exact ih
    | poll => exact congrArg (List.cons _) ih

lemma told_of_ended (h : listener.isOpen = false) (traffic : Traffic ν) (waiter : Waiter)
    (moments : List (Moment ν)) :
    traffic.told waiter listener moments = listener.lastReplies waiter (polls moments) := by
  induction moments generalizing traffic listener with
  | nil =>
    unfold Listener.lastReplies
    cases listener.unread.getLast? <;> rfl
  | cons moment rest ih =>
    cases moment with
    | step step =>
      have hsame : traffic.hear waiter.hash listener (.step step) = listener :=
        Listener.hears_of_ended h _ _
      rw [told, hsame]
      exact ih h _
    | poll =>
      have hasked : listener.asked.isOpen = false := h
      rw [told, ih hasked]
      exact (Listener.lastReplies_succ h waiter _).symm

/-- The replies other than to wait are deliveries in the order in which the channel carried them,
each of them once, and then only that nothing more will come. -/
lemma told_received (traffic : Traffic ν) (waiter : Waiter) (listener : Listener ν)
    (moments : List (Moment ν)) : ∃ (received : List (Delivery ν)) (endings : Nat)
      (more : List (Delivery ν)),
      (traffic.told waiter listener moments).filter (!·.isPending) = received.map .delivery ++
        List.replicate endings (.delivery (.error (noLongerRegistered waiter))) ∧
      (traffic.hearAll waiter.hash listener moments).sent = listener.sent ++ more ∧
      received.Sublist (listener.unread ++ more) := by
  induction moments generalizing traffic listener with
  | nil => exact ⟨[], 0, [], rfl, (List.append_nil _).symm, List.nil_sublist _⟩
  | cons moment rest ih =>
    cases moment with
    | step step =>
      obtain ⟨received, endings, more, htold, hsent, hsub⟩ :=
        ih (traffic.after step) (traffic.hear waiter.hash listener (.step step))
      cases ho : listener.isOpen with
      | true =>
        have hnew := Listener.hears_of_open ho (traffic.delivery? waiter.hash step)
          (traffic.ends waiter.hash step)
        refine ⟨received, endings, (traffic.delivery? waiter.hash step).toList ++ more, htold, ?_, ?_⟩
        · refine hsent.trans ?_
          simp [hear, hnew, Listener.sent]
        · simpa [hear, hnew] using hsub
      | false =>
        have hsame : traffic.hear waiter.hash listener (.step step) = listener :=
          Listener.hears_of_ended ho _ _
        rw [hsame] at hsent hsub
        refine ⟨received, endings, more, htold, ?_, hsub⟩
        rw [hearAll, hsame]
        exact hsent
    | poll =>
      obtain ⟨received, endings, more, htold, hsent, hsub⟩ := ih traffic listener.asked
      have hsent : (traffic.hearAll waiter.hash listener.asked rest).sent =
          listener.sent ++ more := by
        simpa [Listener.asked, Listener.sent] using hsent
      have hsub : received.Sublist more := by simpa [Listener.asked] using hsub
      cases hl : listener.unread.getLast? with
      | some delivery =>
        have hreply : listener.reply waiter = .delivery delivery := by simp [Listener.reply, hl]
        have hread : [delivery].Sublist listener.unread :=
          List.singleton_sublist.mpr (List.mem_of_getLast? hl)
        refine ⟨delivery :: received, endings, more, ?_, hsent, hread.append hsub⟩
        rw [told, hreply, List.filter_cons_of_pos (by rfl), htold]
        rfl
      | none =>
        have hnone : listener.unread = [] := List.getLast?_eq_none_iff.mp hl
        cases ho : listener.isOpen with
        | true =>
          have hreply : listener.reply waiter = .pending := by simp [Listener.reply, hl, ho]
          refine ⟨received, endings, more, ?_, hsent, by simpa [hnone] using hsub⟩
          rw [told, hreply, List.filter_cons_of_neg (by simp [Reply.isPending]), htold]
        | false =>
          have hlast := told_of_ended ho traffic waiter (.poll :: rest)
          refine ⟨[], polls rest + 1, more, ?_, hsent, List.nil_sublist _⟩
          rw [hlast, Listener.lastReplies, hl, List.map_nil, List.nil_append]
          exact List.filter_eq_self.mpr fun reply hm => by
            rw [List.eq_of_mem_replicate hm]
            rfl

lemma hearAll_of_ended (h : listener.isOpen = false) (traffic : Traffic ν) (hash : String)
    (moments : List (Moment ν)) :
    (traffic.hearAll hash listener moments).isOpen = false ∧
      (traffic.hearAll hash listener moments).sent = listener.sent := by
  induction moments generalizing traffic listener with
  | nil => exact ⟨h, rfl⟩
  | cons moment rest ih =>
    cases moment with
    | step step =>
      have hsame : traffic.hear hash listener (.step step) = listener :=
        Listener.hears_of_ended h _ _
      rw [hearAll, hsame]
      exact ih h _
    | poll =>
      have hasked : listener.asked.isOpen = false := h
      obtain ⟨hended, hsent⟩ := ih hasked traffic
      exact ⟨hended, hsent.trans (by simp [Listener.asked, Listener.sent])⟩

/-- The channel carries the deliveries to its hash until it ends. -/
lemma sent_hearAll (traffic : Traffic ν) (hash : String) (listener : Listener ν)
    (moments : List (Moment ν)) : ∃ rest, listener.sent ++ traffic.deliveries hash moments =
        (traffic.hearAll hash listener moments).sent ++ rest ∧
      ((traffic.hearAll hash listener moments).isOpen = true → rest = []) := by
  induction moments generalizing traffic listener with
  | nil => exact ⟨[], rfl, fun _ => rfl⟩
  | cons moment rest ih =>
    cases ho : listener.isOpen with
    | false =>
      obtain ⟨hended, hsent⟩ := hearAll_of_ended ho traffic hash (moment :: rest)
      refine ⟨traffic.deliveries hash (moment :: rest), by rw [hsent], fun hopen => ?_⟩
      rw [hended] at hopen
      exact absurd hopen (by simp)
    | true =>
      cases moment with
      | step step =>
        obtain ⟨missed, hsent, hmissed⟩ :=
          ih (traffic.after step) (traffic.hear hash listener (.step step))
        have hnew : (traffic.hear hash listener (.step step)).sent =
            listener.sent ++ (traffic.delivery? hash step).toList := by
          simp [hear, Listener.hears_of_open ho, Listener.sent]
        refine ⟨missed, ?_, hmissed⟩
        rw [deliveries, ← List.append_assoc, ← hnew]
        exact hsent
      | poll =>
        obtain ⟨missed, hsent, hmissed⟩ := ih traffic listener.asked
        refine ⟨missed, Eq.trans ?_ hsent, hmissed⟩
        simp [deliveries, Listener.asked, Listener.sent]

/-! The listener and its channel. -/

lemma listens_registered (h : registry.Wired) (hash : String) : ∃ number seen,
    (registry.register hash .persistent).1 = ⟨hash, .receiver number seen⟩ ∧
      Listens (registry.register hash .persistent).2 hash number seen Listener.joined := by
  cases hl : registry.line hash with
  | none =>
    refine ⟨registry.channels.length, 0, by rw [register_persistent_of_none hl], ?_, ?_⟩
    · intro other
      rw [line_register_persistent, hl, Option.getD_none]
      by_cases he : hash = other
      · simp [he, Listener.joined]
      · simp [he, h.line_ne_length other]
    · refine ⟨Channel.new.content, ?_, rfl, rfl, fun delivery hd => ?_⟩
      · rw [content_register_persistent, if_pos ⟨hl, rfl⟩]
      · exact absurd hd (by simp [Listener.joined])
  | some number =>
    obtain ⟨channel, hchannel, hopen⟩ := h.isOpen hash number hl
    refine ⟨number, channel.version, ?_, ?_, ?_⟩
    · rw [register_persistent_of_line hl, hchannel]
      rfl
    · intro other
      rw [line_register_persistent, hl, Option.getD_some]
      by_cases he : hash = other
      · simp [he, Listener.joined]
      · have hother : registry.line other ≠ some number :=
          fun hline => he (h.apart hash other number hl hline)
        simp [he, hother]
    · refine ⟨channel, ?_, hopen, rfl, fun delivery hd => absurd hd (by simp [Listener.joined])⟩
      rw [content_register_persistent, if_neg (by simp [hl])]
      exact hchannel

lemma Listens.of_untouched {after : Registry ν} (h : Listens registry hash number seen listener)
    (hl : ∀ hash, after.line hash = registry.line hash)
    (hc : ∀ number, after.content number = registry.content number) :
    Listens after hash number seen listener := by
  obtain ⟨hlined, channel, hchannel, hcarried⟩ := h
  exact ⟨fun other => hl other ▸ hlined other, channel, (hc number).trans hchannel, hcarried⟩

/-- Those who join any hash get no channel that was there before, but the one of the hash. -/
lemma Listens.of_joined {own : String} {after : Registry ν}
    (h : Listens registry hash number seen listener)
    (hl : ∀ other, after.line other = if own = other
      then some ((registry.line own).getD registry.channels.length) else registry.line other)
    (hc : ∀ number, after.content number =
      if registry.line own = none ∧ number = registry.channels.length
      then some Channel.new.content else registry.content number) :
    Listens after hash number seen listener := by
  obtain ⟨hlined, channel, hchannel, hcarried⟩ := h
  have hlt : number < registry.channels.length := lt_of_content hchannel
  refine ⟨fun other => ?_, channel, ?_, hcarried⟩
  · rw [hl]
    by_cases he : own = other
    · subst he
      rw [if_pos rfl, ← hlined own]
      cases registry.line own with
      | none => simp [Nat.ne_of_gt hlt]
      | some joined => simp
    · rw [if_neg he]
      exact hlined other
  · rw [hc, if_neg fun hnew => Nat.ne_of_lt hlt hnew.2]
    exact hchannel

/-- A channel that is struck is one more delivery behind, or at its end. -/
lemma Listens.of_struck {after : Registry ν} {sent : Option (Delivery ν)} {cut : Bool}
    (h : Listens registry hash number seen listener) (ho : listener.isOpen = true)
    (hl : ∀ other, after.line other =
      if cut = true ∧ hash = other then none else registry.line other)
    (hc : ∀ number, after.content number = if registry.line hash = some number
      then (registry.content number).map (.struck sent cut) else registry.content number) :
    Listens after hash number seen (listener.hears sent cut) := by
  obtain ⟨hlined, channel, hchannel, hopen, hversion, hlatest⟩ := h
  have hown : registry.line hash = some number := (hlined hash).mpr ⟨ho, rfl⟩
  rw [Listener.hears_of_open ho]
  refine ⟨fun other => ?_, channel.struck sent cut, ?_, ?_, ?_, fun last hlast => ?_⟩
  · rw [hl]
    by_cases hcut : cut = true ∧ hash = other
    · simp [hcut]
    · rw [if_neg hcut, hlined other]
      cases cut with
      | true => simpa [ho] using fun he => hcut ⟨rfl, he⟩
      | false => simp [ho]
  · rw [hc, if_pos hown, hchannel]
    rfl
  · rw [Channel.isOpen_struck, hopen, ho, Bool.true_and]
  · rw [Channel.version_struck, hversion, List.length_append, Nat.add_assoc]
  · rw [Channel.latest_struck]
    cases sent with
    | none => exact hlatest last (by simpa using hlast)
    | some delivery => simpa using hlast

/-- What strikes another channel leaves this one alone. -/
lemma Listens.of_struck_other {own : String} {after : Registry ν} {sent : Option (Delivery ν)}
    {cut : Bool} (h : Listens registry hash number seen listener)
    (hother : registry.line own ≠ some number)
    (hl : ∀ other, after.line other =
      if cut = true ∧ own = other then none else registry.line other)
    (hc : ∀ number, after.content number = if registry.line own = some number
      then (registry.content number).map (.struck sent cut) else registry.content number) :
    Listens after hash number seen listener := by
  obtain ⟨hlined, channel, hchannel, hcarried⟩ := h
  refine ⟨fun other => ?_, channel, ?_, hcarried⟩
  · rw [hl, ← hlined other]
    by_cases hcut : cut = true ∧ own = other
    · have hline : registry.line other ≠ some number := hcut.2 ▸ hother
      simp [hcut, hline]
    · rw [if_neg hcut]
  · rw [hc, if_neg hother]
    exact hchannel

lemma listens_after (h : Listens traffic.registry hash number seen listener) (step : Step ν) :
    Listens (traffic.after step).registry hash number seen
      (traffic.hear hash listener (.step step)) := by
  have heffect := channelEffect traffic step
  generalize (traffic.after step).registry = after at heffect
  rw [hear]
  cases heffect with
  | untouched hd he hl hc =>
    rw [hd, he, Listener.hears_none]
    exact h.of_untouched hl hc
  | @joined own _ hl hc =>
    have hsame : listener.hears (traffic.delivery? hash (.register own .persistent))
        (traffic.ends hash (.register own .persistent)) = listener := Listener.hears_none listener
    rw [hsame]
    exact h.of_joined hl hc
  | struck own sent cut hd he hl hc =>
    rw [hd, he]
    by_cases hown : traffic.registry.line own = some number
    · obtain ⟨ho, rfl⟩ := (h.lined own).mp hown
      rw [if_pos rfl, decide_eq_true rfl, Bool.and_true]
      exact h.of_struck ho hl hc
    · have hsame : listener.hears (if own = hash then sent else none)
          (cut && decide (own = hash)) = listener := by
        cases ho : listener.isOpen with
        | false => exact Listener.hears_of_ended ho _ _
        | true =>
          have hne : own ≠ hash := by
            rintro rfl
            exact hown ((h.lined own).mpr ⟨ho, rfl⟩)
          rw [if_neg hne, decide_eq_false hne, Bool.and_false]
          exact Listener.hears_none listener
      rw [hsame]
      exact h.of_struck_other hown hl hc

lemma take_listening (h : Listens registry hash number seen listener) :
    registry.take ⟨hash, .receiver number seen⟩ = match listener.unread.getLast? with
      | some delivery =>
        (.delivery delivery, ⟨hash, .receiver number (seen + listener.unread.length)⟩)
      | none => (if listener.isOpen then .nothingYet else .over, ⟨hash, .receiver number seen⟩) := by
  obtain ⟨-, channel, hchannel, hopen, hversion, hlatest⟩ := h
  obtain ⟨found, hfound, rfl⟩ := Option.map_eq_some_iff.mp hchannel
  have hopen : found.isOpen = listener.isOpen := hopen
  have hversion : found.version = seen + listener.unread.length := hversion
  unfold take
  dsimp only
  rw [hfound]
  cases hl : listener.unread.getLast? with
  | none =>
    have hnone : listener.unread = [] := List.getLast?_eq_none_iff.mp hl
    have hseen : found.version = seen := by simpa [hnone] using hversion
    have hunseen : found.unseen? seen = none := by simp [Channel.unseen?, hseen]
    simp only [hunseen, hopen]
  | some delivery =>
    have hlatest : found.latest = some delivery := hlatest delivery hl
    have hread : 0 < listener.unread.length :=
      List.length_pos_of_mem (List.mem_of_getLast? hl)
    have hne : found.version ≠ seen := by omega
    have hunseen : found.unseen? seen = some delivery := by simp [Channel.unseen?, hne, hlatest]
    simp only [hunseen, hversion]

lemma listens_asked (h : Listens registry hash number seen listener) :
    Listens registry hash number (seen + listener.unread.length) listener.asked := by
  obtain ⟨hlined, channel, hchannel, hopen, hversion, -⟩ := h
  refine ⟨hlined, channel, hchannel, hopen, hversion, fun delivery hd => ?_⟩
  exact absurd hd (by simp [Listener.asked])

/-- Asking gives the reply that the listener is due. -/
lemma await_listening (h : Listens registry hash number seen listener)
    (ha : Asks ⟨hash, .receiver number seen⟩ handle) (hw : waiter.hash = hash) : ∃ next version,
      handle.await registry = (listener.reply waiter, next) ∧
      Asks ⟨hash, .receiver number version⟩ next ∧
      Listens registry hash number version listener.asked := by
  have hover : ∀ claim, noLongerRegistered ⟨hash, claim⟩ = noLongerRegistered waiter := by
    intro claim
    rw [noLongerRegistered, noLongerRegistered, hw]
  have htake := take_listening h
  have hasked := listens_asked h
  have hawait : handle.await registry =
      (Handle.idle ⟨hash, .receiver number seen⟩).await registry := by
    rcases ha with rfl | rfl <;> rfl
  rw [hawait, Handle.await, htake]
  unfold Listener.reply
  cases hl : listener.unread.getLast? with
  | some delivery => exact ⟨_, _, rfl, .inl rfl, hasked⟩
  | none =>
    have hnone : listener.unread = [] := List.getLast?_eq_none_iff.mp hl
    rw [hnone, List.length_nil, Nat.add_zero] at hasked
    cases ho : listener.isOpen with
    | true => exact ⟨_, seen, rfl, .inr rfl, hasked⟩
    | false => exact ⟨.idle ⟨hash, .receiver number seen⟩, seen, by simp [hover], .inl rfl, hasked⟩

lemma replies_eq_told (h : Listens traffic.registry hash number seen listener)
    (ha : Asks ⟨hash, .receiver number seen⟩ handle) (hw : waiter.hash = hash)
    (moments : List (Moment ν)) :
    traffic.replies handle moments = traffic.told waiter listener moments := by
  induction moments generalizing traffic listener handle seen with
  | nil => rfl
  | cons moment rest ih =>
    cases moment with
    | step step =>
      have hnext := ih (listens_after h step) ha
      rw [← hw] at hnext
      exact hnext
    | poll =>
      obtain ⟨next, version, hawait, hasks, hlistens⟩ := await_listening h ha hw
      rw [replies, hawait, told, ih hlistens hasks]

/-- Whatever the callers do, what a persistent waiter is told when it asks depends on the channel
that it joined alone. It gets the newest delivery, unless it has got it before, and each delivery
at most once, in their order. When the channel has ended, it gets the last delivery if this is
left, and after that it is told that nothing more will come. -/
theorem persistent_waiter_gets_newest_once (before : List (Step ν)) (hash : String)
    (early late : List (Moment ν)) :
    let joined := (quiet Registry.empty).run before
    let waiter := (joined.registry.register hash .persistent).1
    let start := joined.after (.register hash .persistent)
    let listener := start.hearAll hash .joined early
    let replies := start.replies (.idle waiter)
    replies (early ++ [.poll]) = replies early ++ [listener.reply waiter] ∧
    (∃ (received : List (Delivery ν)) (endings : Nat),
      (replies early).filter (!·.isPending) = received.map .delivery ++
        List.replicate endings (.delivery (.error (noLongerRegistered waiter))) ∧
      received.Sublist listener.sent) ∧
    (∃ missed, start.deliveries hash early = listener.sent ++ missed ∧
      (listener.isOpen = true → missed = [])) ∧
    (listener.isOpen = false →
      replies (early ++ late) = replies early ++ listener.lastReplies waiter (polls late)) := by
  intro joined waiter start listener replies
  obtain ⟨number, seen, hwaiter, hlistens⟩ :=
    listens_registered (wired_run wired_quiet_empty before) hash
  have hw : waiter.hash = hash := by
    change (joined.registry.register hash .persistent).1.hash = hash
    rw [hwaiter]
  have htold : ∀ moments, replies moments = start.told waiter .joined moments := by
    intro moments
    apply replies_eq_told hlistens _ hw
    exact .inl (congrArg Handle.idle hwaiter)
  have hheard : start.hearAll waiter.hash .joined early = listener := by rw [hw]
  refine ⟨?_, ?_, ?_, fun hended => ?_⟩
  · rw [htold, htold, told_append, hheard]
    rfl
  · obtain ⟨received, endings, more, hreceived, hsent, hsub⟩ :=
      told_received start waiter .joined early
    rw [hheard] at hsent
    refine ⟨received, endings, (htold early).symm ▸ hreceived, hsent ▸ hsub⟩
  · exact sent_hearAll start hash .joined early
  · rw [htold, htold, told_append, hheard, told_of_ended hended]

/-- A waiter joins after a first delivery, asks too late for a second one, and misses the end of its
channel. The last delivery is kept for it, and the channel that the hash has afterwards is none of
its business. -/
theorem waiter_keeps_last_delivery_of_its_channel :
    let before : List (Step Nat) := [.register "book" .persistent, .settle "book" (.ok 0)]
    let early : List (Moment Nat) := [.step (.prune "book"), .step (.settle "book" (.ok 1)),
      .step (.settle "trades" (.ok 8)), .step (.settle "book" (.ok 2)), .poll, .poll,
      .step (.settle "book" (.ok 3)), .step (.unsubscribe "book")]
    let late : List (Moment Nat) := [.step (.prune "book"), .step (.register "book" .persistent),
      .step (.settle "book" (.ok 9)), .poll, .poll, .poll]
    let nothingMore : Reply Nat := .delivery (.error
      (.connectionClosed "message hash 'book' is no longer registered"))
    let joined := (quiet Registry.empty).run before
    let waiter := (joined.registry.register "book" .persistent).1
    let start := joined.after (.register "book" .persistent)
    (start.hearAll "book" .joined early).isOpen = false ∧
      start.replies (.idle waiter) (early ++ late) =
        [.delivery (.ok 2), .pending, .delivery (.ok 3), nothingMore, nothingMore] := by
  intro before early late nothingMore joined waiter start
  obtain ⟨-, -, -, hlast⟩ := persistent_waiter_gets_newest_once before "book" early late
  exact ⟨rfl, hlast rfl⟩

end Traffic

end MarketFeed
