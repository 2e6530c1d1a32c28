import MarketFeed.Proofs.Registry.Listening

/-!
# Rejections and the waiters that see them

A rejection is a delivery like any other. The ticket of a waiter for one delivery keeps it. A
channel keeps only the newest delivery, so a persistent waiter misses a rejection if its channel
carries something else before the waiter asks.
-/

namespace MarketFeed

namespace Traffic

open Registry

variable {ν : Type} {traffic : Traffic ν} {hash : String} {listener : Listener ν} {waiter : Waiter}
  {fault : Fault} {between : List (Moment ν)}

/-- The replies other than to wait are some of these deliveries in their order, and then only that
nothing more will come. -/
def Receives (waiter : Waiter) (deliveries : List (Delivery ν)) (replies : List (Reply ν)) : Prop :=
  ∃ (received : List (Delivery ν)) (endings : Nat),
    replies.filter (!·.isPending) = received.map .delivery ++
      List.replicate endings (.delivery (.error (noLongerRegistered waiter))) ∧
    received.Sublist deliveries

/-! What comes between two requests. -/

lemma told_unasked (hp : polls between = 0) : traffic.told waiter listener between = [] := by
  induction between generalizing traffic listener with
  | nil => rfl
  | cons moment rest ih =>
    cases moment with
    | step step => exact ih hp
    | poll => exact absurd hp (by simp [polls])

lemma deliveries_polls (traffic : Traffic ν) (hash : String) (requests : Nat) :
    traffic.deliveries hash (List.replicate requests .poll) = [] := by
  induction requests with
  | zero => rfl
  | succ more ih => exact ih

/-- Until it is asked for, what the channel carries adds up, whatever was there before. -/
lemma hearAll_unasked (hp : polls between = 0) (traffic : Traffic ν) (hash : String)
    (heard unread more : List (Delivery ν)) (isOpen : Bool) :
    let fresh := traffic.hearAll hash ⟨[], more, isOpen⟩ between
    fresh.heard = [] ∧ traffic.hearAll hash ⟨heard, unread ++ more, isOpen⟩ between =
      ⟨heard, unread ++ fresh.unread, fresh.isOpen⟩ := by
  induction between generalizing traffic more isOpen with
  | nil => exact ⟨rfl, rfl⟩
  | cons moment rest ih =>
    cases moment with
    | poll => exact absurd hp (by simp [polls])
    | step step =>
      cases isOpen with
      | true =>
        have hfresh := ih hp (traffic.after step)
          (more ++ (traffic.delivery? hash step).toList) (!traffic.ends hash step)
        rw [← List.append_assoc] at hfresh
        exact hfresh
      | false => exact ih hp (traffic.after step) more false

lemma hearAll_joined (hp : polls between = 0) (ho : listener.isOpen = true) :
    (traffic.hearAll hash listener between).unread =
      listener.unread ++ (traffic.hearAll hash .joined between).sent := by
  obtain ⟨heard, unread, isOpen⟩ := listener
  obtain rfl : isOpen = true := ho
  obtain ⟨hnone, hall⟩ := hearAll_unasked hp traffic hash heard unread [] true
  rw [List.append_nil] at hall
  rw [hall, Listener.joined, Listener.sent, hnone, List.nil_append]

/-- What a listener gets after it has asked is what its hash is delivered from then on. -/
lemma told_asked (traffic : Traffic ν) (waiter : Waiter) (listener : Listener ν)
    (moments : List (Moment ν)) : Receives waiter (traffic.deliveries waiter.hash moments)
      (traffic.told waiter listener.asked moments) := by
  obtain ⟨received, endings, more, htold, hmore, hsub⟩ :=
    told_received traffic waiter listener.asked moments
  obtain ⟨missed, hsent, -⟩ := sent_hearAll traffic waiter.hash listener.asked moments
  refine ⟨received, endings, htold, ?_⟩
  have hall : traffic.deliveries waiter.hash moments = more ++ missed := by
    rw [hmore, List.append_assoc] at hsent
    exact List.append_cancel_left hsent
  rw [hall]
  exact (by simpa [Listener.asked] using hsub : received.Sublist more).trans
    (List.sublist_append_left ..)

/-! The rejection. -/

/-- A listener whose channel carries a rejection gets it with its next request, or what has taken
its place by then. -/
lemma told_rejected (hp : polls between = 0) (ho : listener.isOpen = true) (traffic : Traffic ν)
    (waiter : Waiter) (fault : Fault) (late : List (Moment ν)) :
    let rejection : Step ν := .settle waiter.hash (.error fault)
    let rejected := traffic.after rejection
    let overtaking := (rejected.hearAll waiter.hash .joined between).sent
    ∃ rest, traffic.told waiter listener (.step rejection :: (between ++ .poll :: late)) =
        .delivery (overtaking.getLast?.getD (.error fault)) :: rest ∧
      Receives waiter ((rejected.passAll between).deliveries waiter.hash late) rest := by
  intro rejection rejected overtaking
  let next : Listener ν := ⟨listener.heard, listener.unread ++ [.error fault], true⟩
  let reached := rejected.hearAll waiter.hash next between
  have hhears : traffic.hear waiter.hash listener (.step rejection) = next := by
    rw [hear, Listener.hears_of_open ho]
    simp [rejection, next, delivery?, ends]
  have hreply : reached.reply waiter = .delivery (overtaking.getLast?.getD (.error fault)) := by
    have hunread : reached.unread = listener.unread ++ [.error fault] ++ overtaking :=
      hearAll_joined hp rfl
    have hlast : reached.unread.getLast? = some (overtaking.getLast?.getD (.error fault)) := by
      rw [hunread, List.getLast?_append, List.getLast?_concat]
      cases overtaking.getLast? <;> rfl
    rw [Listener.reply, hlast]
  refine ⟨(rejected.passAll between).told waiter reached.asked late, ?_, told_asked _ waiter _ late⟩
  rw [told, hhears, told_append, told_unasked hp, List.nil_append, told, hreply]

/-- A persistent waiter. -/
lemma persistent_rejected (before : List (Step ν)) (hash : String) (fault : Fault)
    (early between late : List (Moment ν)) (hp : polls between = 0) :
    let joined := (quiet Registry.empty).run before
    let waiter := (joined.registry.register hash .persistent).1
    let start := joined.after (.register hash .persistent)
    let rejection : Step ν := .settle hash (.error fault)
    let rejected := (start.passAll early).after rejection
    let overtaking := (rejected.hearAll hash .joined between).sent
    (start.hearAll hash .joined early).isOpen = true →
      ∃ rest, start.replies (.idle waiter) (early ++ .step rejection :: (between ++ .poll :: late)) =
          start.replies (.idle waiter) early ++
            .delivery (overtaking.getLast?.getD (.error fault)) :: rest ∧
        Receives waiter ((rejected.passAll between).deliveries hash late) rest := by
  intro joined waiter start rejection rejected overtaking ho
  obtain ⟨number, seen, hwaiter, hlistens⟩ :=
    listens_registered (wired_run wired_quiet_empty before) hash
  have hw : waiter.hash = hash := by
    change (joined.registry.register hash .persistent).1.hash = hash
    rw [hwaiter]
  have htold : ∀ moments, start.replies (.idle waiter) moments =
      start.told waiter .joined moments := by
    intro moments
    apply replies_eq_told hlistens _ hw
    exact .inl (congrArg Handle.idle hwaiter)
  have hheard : (start.hearAll waiter.hash .joined early).isOpen = true := hw ▸ ho
  have hrejected := told_rejected hp hheard (start.passAll early) waiter fault late
  rw [hw] at hrejected
  obtain ⟨rest, hrest, hreceived⟩ := hrejected
  refine ⟨rest, ?_, hreceived⟩
  rw [htold, htold, told_append, hw, hrest]

/-- A waiter for one delivery. -/
lemma one_shot_rejected (before : List (Step ν)) (hash : String) (fault : Fault)
    (early late : List (Moment ν)) :
    let joined := (quiet Registry.empty).run before
    let waiter := (joined.registry.register hash .oneShot).1
    let start := joined.after (.register hash .oneShot)
    start.deliveries hash early = [] → Spares waiter early → Spares waiter late →
      start.replies (.idle waiter) (early ++ .step (.settle hash (.error fault)) :: late) =
        List.replicate (polls early) .pending ++
          repliesFrom (.error fault) waiter (polls late) := by
  intro joined waiter start hd hearly hlate
  have hstart : start.registry.Holds hash joined.registry.tickets.length :=
    holds_registered (numbered_run numbered_quiet_empty before) hash
  obtain ⟨hreached, next, hnext, hreplies⟩ := replies_undelivered hstart (.inl rfl) hd hearly
  have hgiven : (start.passAll early).delivery? hash (.settle hash (.error fault)) =
      some (.error fault) := by simp [delivery?]
  have hdelivered := delivered_of_holds hreached hgiven
  have hlast := replies_delivered hdelivered hnext hlate
  refine (hreplies _).trans ?_
  rw [replies, hlast]
  rfl

/-- Whatever the callers do, a waiter for one delivery that waits when its hash is rejected gets the
rejection with its next request, and after that no other delivery. A persistent waiter whose channel
is open at that time gets the rejection with its next request if its channel carries nothing else
before. Otherwise it gets the last of what came after the rejection. In either case what it gets
later came after this request, so that it never gets the rejection again. -/
theorem rejection_seen_unless_overtaken (before : List (Step ν)) (hash : String) (fault : Fault)
    (early between late : List (Moment ν)) (hp : polls between = 0) :
    let joined := (quiet Registry.empty).run before
    let waiter := fun kind => (joined.registry.register hash kind).1
    let start := fun kind => joined.after (.register hash kind)
    let replies := fun kind => (start kind).replies (.idle (waiter kind))
    let rejection : Step ν := .settle hash (.error fault)
    let rejected := ((start .persistent).passAll early).after rejection
    let overtaking := (rejected.hearAll hash .joined between).sent
    ((start .oneShot).deliveries hash early = [] → Spares (waiter .oneShot) early →
      Spares (waiter .oneShot) late →
      replies .oneShot (early ++ .step rejection :: late) =
        List.replicate (polls early) .pending ++
          repliesFrom (.error fault) (waiter .oneShot) (polls late)) ∧
    (((start .persistent).hearAll hash .joined early).isOpen = true →
      ∃ rest, replies .persistent (early ++ .step rejection :: (between ++ .poll :: late)) =
          replies .persistent early ++
            .delivery (overtaking.getLast?.getD (.error fault)) :: rest ∧
        Receives (waiter .persistent) ((rejected.passAll between).deliveries hash late) rest) :=
  ⟨one_shot_rejected before hash fault early late,
    persistent_rejected before hash fault early between late hp⟩

/-- A hash with a waiter of either kind is rejected while another hash is delivered to. -/
theorem rejection_reaches_both_kinds :
    let fault : Fault := .exchange ⟨"1", "bad channel", none⟩
    let before : List (Step Nat) := [.register "ticker" .persistent, .settle "ticker" (.ok 0)]
    let early : List (Moment Nat) :=
      [.step (.prune "ticker"), .step (.settle "trades" (.ok 7)), .poll]
    let between : List (Moment Nat) := [.step (.prune "ticker"), .step (.settle "trades" (.ok 8))]
    let late : List (Moment Nat) := [.step (.settle "ticker" (.ok 1)), .poll, .poll]
    let joined := (quiet Registry.empty).run before
    let waiter := fun kind => (joined.registry.register "ticker" kind).1
    let start := fun kind => joined.after (.register "ticker" kind)
    let replies := fun kind => (start kind).replies (.idle (waiter kind))
    let rejection : Step Nat := .settle "ticker" (.error fault)
    polls between = 0 ∧
    replies .oneShot (early ++ .step rejection :: late) = [.pending, .delivery (.error fault),
      .delivery (.error (.connectionClosed "message hash 'ticker' is no longer registered"))] ∧
    ∃ rest, replies .persistent (early ++ .step rejection :: (between ++ .poll :: late)) =
        [.pending, .delivery (.error fault)] ++ rest ∧
      Receives (waiter .persistent) [.ok 1] rest := by
  intro fault before early between late joined waiter start replies rejection
  obtain ⟨honce, hunless⟩ :=
    rejection_seen_unless_overtaken before "ticker" fault early between late rfl
  have hearly : Spares (waiter .oneShot) early := by
    intro dropped hm
    exact absurd hm (by simp [early])
  have hlate : Spares (waiter .oneShot) late := by
    intro dropped hm
    exact absurd hm (by simp [late])
  exact ⟨rfl, honce rfl hearly hlate, hunless rfl⟩

/-- A value that comes before the waiter asks takes the place of the rejection, and however often
the waiter asks then, it does not get the rejection. -/
theorem overtaken_rejection_is_lost :
    let fault : Fault := .exchange ⟨"1", "bad channel", none⟩
    let before : List (Step Nat) := []
    let moments : List (Moment Nat) := [.step (.settle "ticker" (.error fault)),
      .step (.prune "ticker"), .step (.settle "ticker" (.ok 5)), .step (.prune "ticker")]
    let joined := (quiet Registry.empty).run before
    let waiter := (joined.registry.register "ticker" .persistent).1
    let start := joined.after (.register "ticker" .persistent)
    start.registry.isPersistent "ticker" = true ∧
      ∀ requests, .delivery (.error fault) ∉
        start.replies (.idle waiter) (moments ++ List.replicate requests .poll) := by
  intro fault before moments joined waiter start
  refine ⟨rfl, fun requests => ?_⟩
  cases requests with
  | zero => exact List.not_mem_nil
  | succ more =>
    obtain ⟨rest, hrest, received, endings, htold, hsub⟩ := persistent_rejected before "ticker" fault
      [] [.step (.prune "ticker"), .step (.settle "ticker" (.ok 5)), .step (.prune "ticker")]
      (List.replicate more .poll) rfl rfl
    rw [deliveries_polls] at hsub
    have hreplies : start.replies (.idle waiter) (moments ++ List.replicate (more + 1) .poll) =
        .delivery (.ok 5) :: rest := hrest
    have hover : rest.filter (!·.isPending) =
        List.replicate endings (.delivery (.error (noLongerRegistered waiter))) := by
      rw [htold, List.sublist_nil.mp hsub]
      rfl
    rw [hreplies]
    intro hm
    have hlater : .delivery (.error fault) ∈ rest := (List.mem_cons.mp hm).resolve_left (by simp)
    have hleft : .delivery (.error fault) ∈ rest.filter (!·.isPending) :=
      List.mem_filter.mpr ⟨hlater, rfl⟩
    rw [hover] at hleft
    exact absurd (List.eq_of_mem_replicate hleft) (by simp [fault, noLongerRegistered])

end Traffic

end MarketFeed
