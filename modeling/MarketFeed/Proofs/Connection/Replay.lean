import MarketFeed.Proofs.Connection.Requests

/-!
# Records that are sent again

The records of an earlier connection exist twice: on record, where callers may release their hashes,
and in the list that waits for the socket to open, which nobody touches until then. What is sent
again comes from the list. A record is still held by then if one of its hashes has been kept.
-/

namespace MarketFeed

namespace Station

variable {adapter : Adapter} {station : Station} {step : Step} {steps : List Step}
  {records : List SubscriptionRecord} {source : SubscriptionRecord} {place : Nat} {hash : String}

/-- The connection holds the record that it took over in the given place. -/
def Holds (station : Station) (place : Nat) (source : SubscriptionRecord) : Prop :=
  ∃ entry ∈ station.ledger.subscriptions.records.entries,
    entry.2.sequence = place ∧ entry.2.request = source.request ∧
      entry.2.isPrivate = source.isPrivate

/-- It does so because of the given hash. -/
def HoldsFor (station : Station) (place : Nat) (source : SubscriptionRecord) (hash : String) : Prop :=
  ∃ entry ∈ station.ledger.subscriptions.records.entries,
    (source.place place).Continues entry.2 ∧ hash ∈ entry.2.hashes

lemma HoldsFor.holds (h : station.HoldsFor place source hash) : station.Holds place source := by
  obtain ⟨entry, hm, hcontinues, -⟩ := h
  exact ⟨entry, hm, hcontinues.sequence, hcontinues.request, hcontinues.isPrivate⟩

lemma holdsFor_new (url : String) (settings : ConnectionSettings) (store : FeedStore)
    (hp : records[place]? = some source) (hh : hash ∈ source.hashes)
    (hlast : ∀ later other, place < later → records[later]? = some other →
      other.key ≠ source.key) : (new url settings records store).HoldsFor place source hash :=
  ⟨_, Subscriptions.mem_restore hp hlast, .refl _, hh⟩

lemma holdsFor_after (hq : station.IsQuiet) (h : station.HoldsFor place source hash)
    (hs : step ≠ .unsubscribe hash) (adapter : Adapter) :
    (station.after adapter step).HoldsFor place source hash := by
  obtain ⟨⟨key, record⟩, hm, hcontinues, hh⟩ := h
  have heffect := requestEffect hq adapter step
  unfold HoldsFor
  generalize (station.after adapter step).ledger = after at heffect ⊢
  cases heffect with
  | opened => exact ⟨(key, record), hm, hcontinues, hh⟩
  | served hl =>
    obtain ⟨later, hlater, hcontinues', hh'⟩ := hl.survival hm hh hs
    exact ⟨(key, later), hlater, hcontinues.trans hcontinues', hh'⟩

lemma holdsFor_run (ht : station.TookOver records) (h : station.HoldsFor place source hash)
    (hs : .unsubscribe hash ∉ steps) (adapter : Adapter) :
    (station.run adapter steps).HoldsFor place source hash :=
  run_keeps ht h fun _ hm _ ht h => holdsFor_after ht.quiet h (fun he => hs (he ▸ hm)) adapter

/-! What waits to be sent again. -/

/-- Calls that are to send records again have been made for the private ones that were taken over,
when the socket had opened. -/
def RestoresTaken (records : List SubscriptionRecord) (station : Station) : Prop :=
  ∀ call restored, .blocked call ∈ station.calls → call.purpose = .restore restored →
    restored = records.filter (·.isPrivate) ∧ station.ledger.everOpened = true

/-- A socket that has opened once has opened for good. -/
lemma everOpened_after (hq : station.IsQuiet) (adapter : Adapter) (step : Step) :
    (station.ledger.everOpened = true → (station.after adapter step).ledger.everOpened = true) ∧
    ∀ now, step = .opened now → (station.after adapter step).ledger.everOpened = true := by
  have heffect := requestEffect hq adapter step
  generalize (station.after adapter step).ledger = after at heffect
  cases heffect with
  | opened => exact ⟨fun _ => rfl, fun _ _ => rfl⟩
  | served hl _ ho =>
    exact ⟨fun he => hl.frame.1.trans he, fun now hs => hl.frame.1.trans (ho now hs)⟩

lemma restoresTaken_after (ht : station.TookOver records) (h : station.RestoresTaken records)
    (hs : ∀ restored, step ≠ .begin (.restore restored)) (adapter : Adapter) :
    (station.after adapter step).RestoresTaken records := by
  intro call restored hm hp
  obtain ⟨hkeeps, hopens⟩ := everOpened_after ht.quiet adapter step
  cases origin ht.quiet hm with
  | kept hm => exact (h call restored hm hp).imp_right hkeeps
  | advanced _ hb hsame =>
    exact (h _ restored (List.mem_of_getElem? hb) (hsame.symm.trans hp)).imp_right hkeeps
  | begun hstep => exact absurd (hp ▸ hstep) (hs restored)
  | @restoring _ now hstep ho hb =>
    have hreplay : station.connection.replay = records := ht.ledger.waiting ho
    rw [hb, purpose_begin, hreplay] at hp
    exact ⟨(Purpose.restore.inj hp).symm, hopens now hstep⟩

lemma restoresTaken_run (ht : station.TookOver records) (h : station.RestoresTaken records)
    (hs : ∀ restored, .begin (.restore restored) ∉ steps) (adapter : Adapter) :
    (station.run adapter steps).RestoresTaken records :=
  run_keeps ht h fun _ hm _ ht h =>
    restoresTaken_after ht h (fun restored he => hs restored (he ▸ hm)) adapter

/-- The records that a step sends again are all public ones that were taken over, or all private
ones. -/
lemma resent_cases (ht : station.TookOver records) (h : station.RestoresTaken records)
    (adapter : Adapter) (step : Step) :
    station.resent adapter step = [] ∨
      (∃ now, step = .opened now) ∧
        station.resent adapter step = records.filter (!·.isPrivate) ∨
      (∃ index, step = .advance index) ∧
        station.resent adapter step = records.filter (·.isPrivate) := by
  cases step with
  | opened now =>
    rw [resent]
    cases ho : station.connection.everOpened with
    | true => exact .inl (if_pos rfl)
    | false =>
      have hreplay : station.connection.replay = records := ht.ledger.waiting ho
      rw [hreplay]
      exact .inr (.inl ⟨⟨now, rfl⟩, if_neg (by simp)⟩)
  | advance index =>
    rcases advance_idle adapter station index with ⟨call, hcall⟩ | ⟨-, hnone⟩
    · rw [resent_advance adapter hcall]
      split
      · rename_i restored _ hp _
        exact .inr (.inr ⟨⟨index, rfl⟩, (h call restored (List.mem_of_getElem? hcall) hp).1⟩)
      · exact .inl rfl
    · exact .inl hnone
  | _ => exact .inl rfl

/-- The frames of these records are the last that the step queues. -/
lemma outbox_resent (hq : station.IsQuiet) (adapter : Adapter) (step : Step) :
    ∃ others, (station.after adapter step).ledger.outbox = station.ledger.outbox ++ others ++
      SubscriptionRecord.frames (station.resent adapter step) := by
  have heffect := requestEffect hq adapter step
  generalize (station.after adapter step).ledger = after at heffect
  cases heffect with
  | opened => exact ⟨[], by rw [List.append_nil]; rfl⟩
  | served hl =>
    obtain ⟨others, hothers⟩ := hl.outbox
    exact ⟨others, by rw [hothers]; rfl⟩

/-! What is queued first. -/

/-- What tasks do: signs of life are sent once the socket has opened, and no caller makes a call to
send records again. -/
def permits (station : Station) : Step → Bool
  | .probe _ => station.connection.everOpened
  | .begin (.restore _) => false
  | _ => true

/-- Nothing is queued before the socket opens, and the public records that were taken over are the
first then. -/
def IsPrompt (records : List SubscriptionRecord) (station : Station) : Prop :=
  (station.ledger.everOpened = false → station.ledger.outbox = []) ∧
  (station.ledger.everOpened = true →
    SubscriptionRecord.frames (records.filter (!·.isPrivate)) <+: station.ledger.outbox)

lemma outbox_of_silent (ht : station.TookOver records) (ho : station.ledger.everOpened = false)
    (hp : station.permits step = true) {after : Ledger}
    (hl : Ledger.Leads station.connection.state step station.ledger after) :
    after.outbox = station.ledger.outbox := by
  have hclosed : station.connection.state ≠ .opened := fun hopen => by
    rw [ht.opened hopen] at ho
    exact absurd ho (by simp)
  have hprobe : ∀ now, step ≠ .probe now := fun now hs => by
    rw [hs] at hp
    exact absurd (ho.symm.trans hp) (by simp)
  induction hl with
  | refl => rfl
  | tail _ hmove ih =>
    cases hmove with
    | queued outgoing hs =>
      rcases hs with hopen | ⟨now, hs⟩
      · exact absurd hopen hclosed
      · exact absurd hs (hprobe now)
    | added request =>
      rw [if_neg hclosed, Ledger.push_nil]
      exact ih
    | _ => exact ih

lemma resent_of_silent (hc : station.RestoresTaken records)
    (ho : station.ledger.everOpened = false) (hs : ∀ now, step ≠ .opened now) (adapter : Adapter) :
    station.resent adapter step = [] := by
  cases step with
  | opened now => exact absurd rfl (hs now)
  | advance index =>
    rcases advance_idle adapter station index with ⟨call, hcall⟩ | ⟨-, hnone⟩
    · rw [resent_advance adapter hcall]
      split
      · rename_i restored _ hp _
        have hopened := (hc call restored (List.mem_of_getElem? hcall) hp).2
        exact absurd (ho.symm.trans hopened) (by simp)
      · rfl
    · exact hnone
  | _ => rfl

lemma isPrompt_after (ht : station.TookOver records) (hc : station.RestoresTaken records)
    (h : station.IsPrompt records) (hp : station.permits step = true) (adapter : Adapter) :
    (station.after adapter step).IsPrompt records := by
  have heffect := requestEffect ht.quiet adapter step
  unfold IsPrompt
  generalize (station.after adapter step).ledger = after at heffect ⊢
  cases ho : station.ledger.everOpened with
  | true =>
    have hfirst := h.2 ho
    cases heffect with
    | opened hs hearly => exact absurd (ho.symm.trans hearly) (by simp)
    | served hl =>
      exact ⟨fun he => absurd ((hl.frame.1.trans ho).symm.trans he) (by simp),
        fun _ => hfirst.trans (hl.outbox.trans (List.prefix_append ..))⟩
  | false =>
    have hempty := h.1 ho
    cases heffect with
    | served hl _ hlate =>
      have hs : ∀ now, step ≠ .opened now := fun now hs =>
        absurd (ho.symm.trans (hlate now hs)) (by simp)
      rw [resent_of_silent hc ho hs adapter]
      refine ⟨fun _ => ?_, fun he => absurd ((hl.frame.1.trans ho).symm.trans he) (by simp)⟩
      exact (List.append_nil _).trans ((outbox_of_silent ht ho hp hl).trans hempty)
    | @opened now hs =>
      have hreplay : station.connection.replay = records := ht.ledger.waiting ho
      have hresent : station.resent adapter step = records.filter (!·.isPrivate) := by
        rw [hs, resent, if_neg (by simp [show station.connection.everOpened = false from ho]),
          hreplay]
      refine ⟨fun he => absurd he (by simp), fun _ => ?_⟩
      rw [hresent]
      change _ <+: station.ledger.outbox ++ _
      rw [hempty]
      exact List.prefix_rfl

/-- The records of an earlier connection are sent again as they were handed over, whatever has been
released in between. A record that is sent again is still held, unless all its hashes have been
released since or a later one with its key has taken its place. Only the socket that opens makes
calls that send records again. -/
theorem resent_records_held_unless_released (adapter : Adapter) (url : String)
    (settings : ConnectionSettings) (records : List SubscriptionRecord) (store : FeedStore)
    (steps : List Step) (step : Step) (hs : ∀ restored, .begin (.restore restored) ∉ steps) :
    let before := (new url settings records store).run adapter steps
    let resent := before.resent adapter step
    (∃ others, (before.after adapter step).ledger.outbox =
      before.ledger.outbox ++ others ++ SubscriptionRecord.frames resent) ∧
    (resent = [] ∨ (∃ now, step = .opened now) ∧ resent = records.filter (!·.isPrivate) ∨
      (∃ index, step = .advance index) ∧ resent = records.filter (·.isPrivate)) ∧
    ∀ source ∈ resent, ∀ place, records[place]? = some source →
      before.Holds place source ∨ (∀ hash ∈ source.hashes, .unsubscribe hash ∈ steps) ∨
        ∃ later other, place < later ∧ records[later]? = some other ∧ other.key = source.key := by
  intro before resent
  have hstart := tookOver_new url settings records store
  have hbefore : before.TookOver records := tookOver_run hstart adapter steps
  have hcalls : before.RestoresTaken records :=
    restoresTaken_run hstart (fun _ _ hm => absurd hm List.not_mem_nil) hs adapter
  refine ⟨outbox_resent hbefore.quiet adapter step, resent_cases hbefore hcalls adapter step, ?_⟩
  intro source _ place hp
  by_cases hlast : ∃ later other, place < later ∧ records[later]? = some other ∧
      other.key = source.key
  · exact .inr (.inr hlast)
  · by_cases hreleased : ∀ hash ∈ source.hashes, .unsubscribe hash ∈ steps
    · exact .inr (.inl hreleased)
    · simp only [not_forall] at hreleased
      obtain ⟨hash, hh, hkept⟩ := hreleased
      have hfirst := holdsFor_new url settings store hp hh fun later other hl ho hk =>
        hlast ⟨later, other, hl, ho, hk⟩
      exact .inl (holdsFor_run hstart hfirst hkept adapter).holds

/-- A book channel that two hashes share, one of which is released before the socket opens. -/
theorem shared_book_resent_and_held :
    let book : SubscriptionRecord :=
      ⟨"book:10", ["book:10", "book:50"], .str "book", some "book", false, 0⟩
    let before := (new "ws://feed" .standard [book] (.new .standard .strict)).run .plain
      [.unsubscribe "book:10"]
    before.resent .plain (.opened 0) = [book] ∧ before.Holds 0 book := by
  intro book before
  have hcases := (resent_records_held_unless_released .plain "ws://feed" .standard [book]
    (.new .standard .strict) [.unsubscribe "book:10"] (.opened 0) (by simp)).2.2
    book (List.mem_singleton_self _) 0 rfl
  refine ⟨rfl, ?_⟩
  rcases hcases with hheld | hreleased | ⟨later, other, hlater, hother, -⟩
  · exact hheld
  · exact absurd (hreleased "book:50" (by simp [book])) (by simp)
  · rw [List.getElem?_eq_none (Nat.succ_le_of_lt hlater)] at hother
    exact absurd hother (by simp)

/-- A connection that took over a public and a private channel. -/
def restoredChannels : Station :=
  new "ws://feed" .standard [⟨"trades", ["trades"], .str "trades", none, false, 0⟩, ordersRecord]
    (.new .standard .strict)

/-- Both channels are released before the socket opens. Both are sent again, the private one after
the login, and the connection holds neither of them. -/
theorem released_channels_resent :
    let before := restoredChannels.run loginAdapter [.unsubscribe "trades", .unsubscribe "orders"]
    let later := before.run loginAdapter
      [.opened 0, .advance 0, .settle "auth" (.ok (.message .null))]
    before.ledger.subscriptions.records.entries = [] ∧
    before.resent loginAdapter (.opened 0) =
      [⟨"trades", ["trades"], .str "trades", none, false, 0⟩] ∧
    later.ledger.subscriptions.records.entries = [] ∧
    later.resent loginAdapter (.advance 0) = [ordersRecord] ∧
    (later.after loginAdapter (.advance 0)).ledger.outbox =
      [.frame (.str "trades"), .frame (.str "login"), .frame (.str "orders")] := by
  intro before later
  exact ⟨rfl, rfl, rfl, rfl, rfl⟩

end Station

end MarketFeed
