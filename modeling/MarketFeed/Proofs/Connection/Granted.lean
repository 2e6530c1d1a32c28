import MarketFeed.Proofs.Connection.Requests

/-!
# Subscriptions that are granted

A subscription is granted when its record is there, and it is the record that decides whether its
frame still has to be sent. A new record is sent at once. Records of an earlier connection are sent
when the socket has opened, the private ones after a login. If that login fails they stay on record
all the same, and nobody will ever send them.
-/

namespace MarketFeed

namespace Station

variable {adapter : Adapter} {station : Station} {step : Step} {steps : List Step}
  {records : List SubscriptionRecord} {number length : Nat}

/-! Records that are new are sent. -/

/-- The frames of the records from a number on have been queued. -/
def Requested (station : Station) (number length : Nat) : Prop :=
  station.ledger.Requested station.connection.state number length

lemma requested_after (ht : station.TookOver records) (h : station.Requested number length)
    (adapter : Adapter) (step : Step) : (station.after adapter step).Requested number length := by
  have heffect := requestEffect ht.quiet adapter step
  have hnumbered := (tookOver_after ht adapter step).ledger.numbered
  have hsame : (station.after adapter step).ledger.Requested station.connection.state number
      length := by
    generalize (station.after adapter step).ledger = after at heffect
    cases heffect with
    | served hl => exact (h.leads hl).push _
    | opened =>
      have hpushed := h.push (SubscriptionRecord.frames (station.resent adapter step))
      exact ⟨hpushed.queued, hpushed.early, hpushed.sent⟩
  refine ⟨hsame.queued, fun hc => hsame.early (connecting_of_after hc).1, fun ho entry hm hle => ?_⟩
  rcases opened_of_after ho with hopen | ⟨hconnecting, -⟩
  · exact hsame.sent hopen entry hm hle
  · have hlt := hnumbered.below _ (List.mem_map_of_mem hm)
    exact absurd (Nat.lt_of_lt_of_le hlt (hsame.early hconnecting)) (Nat.not_lt_of_le hle)

lemma requested_run (ht : station.TookOver records) (h : station.Requested number length)
    (adapter : Adapter) (steps : List Step) :
    (station.run adapter steps).Requested number length :=
  run_keeps ht h fun step _ _ ht h => requested_after ht h adapter step

/-! Records of an earlier connection are sent unless that is given up. -/

/-- A call that is to send private records again cannot log in. -/
def givesUp (adapter : Adapter) (station : Station) : Step → Bool
  | .advance index =>
    match station.calls[index]? with
    | some (.blocked call) =>
      match call.purpose, (call.advance adapter station.connection).1 with
      | .restore _, .done (.error _) => true
      | _, _ => false
    | _ => false
  | _ => false

/-- In none of the steps it is given up to send private records again. -/
def persists (adapter : Adapter) (station : Station) : List Step → Bool
  | [] => true
  | step :: rest =>
    !station.givesUp adapter step && (station.after adapter step).persists adapter rest

/-- Whether a call waits that is to send records again. -/
def isRestoring (station : Station) : Bool :=
  station.calls.any fun
    | .blocked ⟨_, .restore _, _⟩ => true
    | _ => false

lemma outbox_after (hq : station.IsQuiet) (adapter : Adapter) (step : Step) :
    station.ledger.outbox <+: (station.after adapter step).ledger.outbox ∧
      ∀ record ∈ station.resent adapter step,
        .frame record.request ∈ (station.after adapter step).ledger.outbox := by
  have heffect := requestEffect hq adapter step
  generalize (station.after adapter step).ledger = after at heffect
  cases heffect with
  | served hl =>
    exact ⟨hl.outbox.trans (List.prefix_append ..), fun record hm =>
      List.mem_append_right _ (List.mem_map_of_mem hm)⟩
  | opened =>
    exact ⟨List.prefix_append .., fun record hm =>
      List.mem_append_right _ (List.mem_map_of_mem hm)⟩

/-- Calls are added at the end, but for the one that goes on. -/
lemma calls_grown (hs : ∀ index, step ≠ .advance index) :
    station.calls <+: (station.after adapter step).calls := by
  cases step with
  | advance index => exact absurd rfl (hs index)
  | opened now =>
    rw [calls_opened]
    unfold withRestore
    split
    · split
      · exact List.prefix_rfl
      · exact List.prefix_append ..
    · exact List.prefix_rfl
  | begin purpose => exact List.prefix_append ..
  | finish =>
    rw [calls_after, work]
    dsimp only
    split <;> exact List.prefix_rfl
  | _ =>
    rw [calls_after]
    exact List.prefix_rfl

/-- A call that is to send records again still waits after a step that does not give it up, or it
has sent them. -/
lemma restoring_after (hq : station.IsQuiet) {call : Call} (hm : .blocked call ∈ station.calls)
    (hp : call.purpose = .restore records) (hg : station.givesUp adapter step = false) :
    (∃ later, .blocked later ∈ (station.after adapter step).calls ∧
      later.purpose = .restore records) ∨ station.resent adapter step = records := by
  by_cases hs : ∃ index, step = .advance index
  · obtain ⟨index, rfl⟩ := hs
    rcases advance_idle adapter station index with ⟨before, hbefore⟩ | ⟨hsame, -⟩
    · have hadvance : Call.Advance (.advance index) before station.connection _ _ :=
        Call.advance_cases (hq.waits hbefore) adapter
      have hresent := resent_advance adapter hbefore
      rw [givesUp, hbefore] at hg
      rw [after_advance hbefore]
      obtain ⟨hlt, -⟩ := List.getElem?_eq_some_iff.mp hbefore
      obtain ⟨place, hplace⟩ := List.mem_iff_getElem?.mp hm
      dsimp only at hg ⊢
      by_cases hi : index = place
      · subst hi
        obtain rfl := Progress.blocked.inj (Option.some.inj (hbefore.symm.trans hplace))
        rw [hp] at hg hresent
        generalize before.advance adapter station.connection = advanced at hadvance hresent hg ⊢
        obtain ⟨progress, after⟩ := advanced
        dsimp only at hadvance hresent hg ⊢
        cases hadvance with
        | @waits stage after hl hstage =>
          exact .inl ⟨_, List.mem_of_getElem? (List.getElem?_set_self hlt), hp⟩
        | fails => exact absurd hg (by simp)
        | completes =>
          rw [Call.complete, hp] at hresent
          exact .inr hresent
      · refine .inl ⟨call, ?_, hp⟩
        exact List.mem_of_getElem? ((List.getElem?_set_ne hi).trans hplace)
    · rw [hsame]
      exact .inl ⟨call, hm, hp⟩
  · exact .inl ⟨call, (calls_grown fun index hi => hs ⟨index, hi⟩).subset hm, hp⟩

/-- The public records of an earlier connection have been sent as soon as the socket has opened. -/
def SentPublic (records : List SubscriptionRecord) (station : Station) : Prop :=
  station.ledger.everOpened = true → ∀ source ∈ records, source.isPrivate = false →
    .frame source.request ∈ station.ledger.outbox

/-- The private ones have been sent as well, or a call waits that is to send them. -/
def SentPrivate (records : List SubscriptionRecord) (station : Station) : Prop :=
  station.connection.state = .opened → ∀ source ∈ records, source.isPrivate = true →
    .frame source.request ∈ station.ledger.outbox ∨
      ∃ call, .blocked call ∈ station.calls ∧
        call.purpose = .restore (records.filter (·.isPrivate))

lemma sentPublic_after (ht : station.TookOver records) (h : station.SentPublic records)
    (adapter : Adapter) (step : Step) : (station.after adapter step).SentPublic records := by
  obtain ⟨hgrown, hresent⟩ := outbox_after ht.quiet adapter step
  intro he source hm hs
  by_cases hearly : station.ledger.everOpened = true
  · exact hgrown.subset (h hearly source hm hs)
  · have heffect := requestEffect ht.quiet adapter step
    generalize (station.after adapter step).ledger = after at heffect he hresent ⊢
    cases heffect with
    | served hl => exact absurd (hl.frame.1.symm.trans he) hearly
    | @opened now hnow ho =>
      refine hresent source ?_
      subst hnow
      have hreplay : station.connection.replay = records := ht.ledger.waiting ho
      rw [resent, if_neg (by simp [ho]), hreplay]
      exact List.mem_filter.mpr ⟨hm, by simp [hs]⟩

lemma sentPublic_run (ht : station.TookOver records) (h : station.SentPublic records)
    (adapter : Adapter) (steps : List Step) : (station.run adapter steps).SentPublic records :=
  run_keeps ht h fun step _ _ ht h => sentPublic_after ht h adapter step

lemma sentPrivate_after (ht : station.TookOver records) (h : station.SentPrivate records)
    (hg : station.givesUp adapter step = false) :
    (station.after adapter step).SentPrivate records := by
  obtain ⟨hgrown, hresent⟩ := outbox_after ht.quiet adapter step
  intro ho source hm hs
  have hprivate : source ∈ records.filter (·.isPrivate) := List.mem_filter.mpr ⟨hm, hs⟩
  rcases opened_of_after ho with hopen | ⟨hconnecting, hearly, now, rfl⟩
  · rcases h hopen source hm hs with hframe | ⟨call, hcall, hp⟩
    · exact .inl (hgrown.subset hframe)
    · rcases restoring_after ht.quiet hcall hp hg with hlater | hsent
      · exact .inr hlater
      · exact .inl (hresent source (hsent ▸ hprivate))
  · have hreplay : station.connection.replay = records := ht.ledger.waiting hearly
    have hsome : ¬(records.filter (·.isPrivate)).isEmpty = true := fun he =>
      List.ne_nil_of_mem hprivate (List.isEmpty_iff.mp he)
    rw [calls_opened, if_pos ⟨hconnecting, hearly⟩, hreplay, withRestore, if_neg hsome]
    exact .inr ⟨_, List.mem_append_right _ (List.mem_singleton_self _), purpose_begin ..⟩

lemma sentPrivate_run (ht : station.TookOver records) (h : station.SentPrivate records)
    (hg : station.persists adapter steps = true) :
    (station.run adapter steps).SentPrivate records := by
  induction steps generalizing station with
  | nil => exact h
  | cons step rest ih =>
    rw [persists, Bool.and_eq_true, Bool.not_eq_true'] at hg
    exact ih (tookOver_after ht adapter step) (sentPrivate_after ht h hg.1) hg.2

/-- Nothing is due before the socket has opened. -/
lemma sentPublic_new (url : String) (settings : ConnectionSettings)
    (records : List SubscriptionRecord) (store : FeedStore) :
    (new url settings records store).SentPublic records := by
  intro he
  exact absurd (show false = true from he) (by simp)

lemma sentPrivate_new (url : String) (settings : ConnectionSettings)
    (records : List SubscriptionRecord) (store : FeedStore) :
    (new url settings records store).SentPrivate records := by
  intro ho
  exact absurd ho (by simp [new, connection, Connection.new])

/-- On an open connection where nothing waits to be sent again, the records of an earlier one have
been sent. -/
lemma frame_of_restored (ht : station.TookOver records)
    (hopen : station.connection.state = .opened) (hrestoring : station.isRestoring = false)
    (hpublic : station.SentPublic records) {entry : String × SubscriptionRecord}
    (hm : entry ∈ station.ledger.subscriptions.records.entries)
    (hlt : entry.2.sequence < records.length)
    (hprivate : entry.2.isPrivate = false ∨ station.SentPrivate records) :
    .frame entry.2.request ∈ station.ledger.outbox := by
  obtain ⟨source, hsource, hcontinues⟩ := ht.ledger.restored entry hm hlt
  have hmem : source ∈ records := List.mem_of_getElem? hsource
  have hkind : entry.2.isPrivate = source.isPrivate := hcontinues.isPrivate
  rw [show entry.2.request = source.request from hcontinues.request]
  cases hs : source.isPrivate with
  | false => exact hpublic (ht.opened hopen) source hmem hs
  | true =>
    have hsent := hprivate.resolve_left (by simp [hkind, hs])
    rcases hsent hopen source hmem hs with hframe | ⟨⟨number, purpose, stage⟩, hcall, hp⟩
    · exact hframe
    · obtain rfl : purpose = _ := hp
      have hwaits : station.isRestoring = true := List.any_eq_true.mpr ⟨_, hcall, rfl⟩
      exact absurd (hrestoring.symm.trans hwaits) (by simp)

/-! A subscription that is granted. -/

/-- Step `index` lets a call go on that makes a subscription, and grants it. -/
structure Grants (adapter : Adapter) (station : Station) (index : Nat) (request : Request) :
    Prop where
  persistent : request.kind = .persistent
  asked : ∃ call, station.calls[index]? = some (.blocked call) ∧ call.purpose = .subscribe request
  granted : ∃ waiter, (station.after adapter (.advance index)).calls[index]? =
    some (.done (.ok (some waiter)))

end Station

namespace Connection

variable {connection : Connection} {request : Request}

lemma recorded_of_takeRequest {waiter : Waiter} (hk : request.kind = .persistent)
    (h : (connection.takeRequest request).1 = .ok waiter) : ∃ record,
      (request.key, record) ∈
        (connection.takeRequest request).2.ledger.subscriptions.records.entries ∧
      record.answers request.messageHash = true := by
  have htaking := connection.taking request
  generalize connection.takeRequest request = taken at htaking h ⊢
  cases htaking with
  | sent hsent => exact absurd (hk.symm.trans hsent) (by simp)
  | refused => exact absurd h (by simp)
  | @joined front back record _ _ _ _ hjoined =>
    rw [ledger_enter, hjoined]
    exact ⟨record.join request.messageHash, by simp [ledger, Subscriptions.joinAt],
      record.answers_join _⟩
  | added _ _ _ _ hadded =>
    rw [ledger_ask, hadded]
    exact ⟨connection.subscriptions.newRecord request,
      by simp [ledger, Ledger.push, Subscriptions.extend],
      by simp [Subscriptions.newRecord, SubscriptionRecord.answers]⟩

end Connection

namespace Station

variable {adapter : Adapter} {station : Station} {steps : List Step} {index : Nat}
  {request : Request} {records : List SubscriptionRecord}

/-- The record of a subscription that is granted is there, and the hash is one of its own. -/
lemma Grants.recorded (hq : station.IsQuiet) (h : station.Grants adapter index request) : ∃ record,
    (request.key, record) ∈
      (station.after adapter (.advance index)).ledger.subscriptions.records.entries ∧
    record.answers request.messageHash = true := by
  obtain ⟨call, hcall, hp⟩ := h.asked
  obtain ⟨waiter, hgranted⟩ := h.granted
  have hadvance : Call.Advance (.advance index) call station.connection _ _ :=
    Call.advance_cases (hq.waits hcall) adapter
  obtain ⟨hlt, -⟩ := List.getElem?_eq_some_iff.mp hcall
  rw [after_advance hcall] at hgranted ⊢
  rw [List.getElem?_set_self hlt] at hgranted
  change ∃ record, _ ∈
    (call.advance adapter station.connection).2.ledger.subscriptions.records.entries ∧ _
  generalize call.advance adapter station.connection = advanced at hadvance hgranted ⊢
  obtain ⟨progress, after⟩ := advanced
  dsimp only at hadvance hgranted ⊢
  cases hadvance with
  | waits => exact absurd hgranted (by simp)
  | fails => exact absurd hgranted (by simp)
  | @completes middle =>
    unfold Call.complete at hgranted ⊢
    rw [hp] at hgranted ⊢
    dsimp only at hgranted ⊢
    cases hresult : (middle.takeRequest request).1 with
    | error fault =>
      rw [hresult] at hgranted
      exact absurd hgranted (by simp [Except.map])
    | ok taken => exact Connection.recorded_of_takeRequest h.persistent hresult

/-- When a subscription is granted on an open connection and no call waits that is to send records
again, then the frame of every record that answers it has been queued on this connection: after
every moment at which the record was not there yet; for a record of an earlier connection, since the
connection is there, unless it is private and the login that it takes to send it again has
failed. -/
theorem granted_subscription_requested (adapter : Adapter) (url : String)
    (settings : ConnectionSettings) (records : List SubscriptionRecord) (store : FeedStore)
    (steps : List Step) (index : Nat) (request : Request) :
    let start := new url settings records store
    let before := start.run adapter steps
    let after := before.after adapter (.advance index)
    before.Grants adapter index request → after.connection.state = .opened →
    after.isRestoring = false →
    (∃ record, (request.key, record) ∈ after.ledger.subscriptions.records.entries ∧
      record.answers request.messageHash = true) ∧
    ∀ entry ∈ after.ledger.subscriptions.records.entries,
      entry.2.answers request.messageHash = true →
      (∀ early late, steps ++ [.advance index] = early ++ late →
        (start.run adapter early).ledger.subscriptions.nextSequence ≤ entry.2.sequence →
        .frame entry.2.request ∈
          after.ledger.outbox.drop (start.run adapter early).ledger.outbox.length) ∧
      (entry.2.sequence < records.length →
        entry.2.isPrivate = false ∨ start.persists adapter (steps ++ [.advance index]) = true →
        .frame entry.2.request ∈ after.ledger.outbox) := by
  intro start before after hgrants hopen hrestoring
  have hstart : start.TookOver records := tookOver_new url settings records store
  have hbefore : before.TookOver records := tookOver_run hstart adapter steps
  have hafter : after.TookOver records := tookOver_after hbefore adapter _
  have hrun : start.run adapter (steps ++ [.advance index]) = after := run_append ..
  refine ⟨hgrants.recorded hbefore.quiet, fun entry hm _ => ⟨fun early late hsplit hle => ?_,
    fun hlt hkind => ?_⟩⟩
  · have hmoment := tookOver_run hstart adapter early
    have hrequested := requested_run hmoment
      (Ledger.requested_of_numbered hmoment.ledger.numbered _) adapter late
    rw [← run_append, ← hsplit, hrun] at hrequested
    exact hrequested.sent hopen entry hm hle
  · have hpublic := sentPublic_run hstart (sentPublic_new url settings records store) adapter
      (steps ++ [.advance index])
    have hprivate := hkind.imp_right fun hpersists =>
      sentPrivate_run hstart (sentPrivate_new url settings records store) hpersists
    rw [hrun] at hpublic hprivate
    exact frame_of_restored hafter hopen hrestoring hpublic hm hlt hprivate

/-- A connection that took over a private channel. -/
def restoredOrders : Station := new "ws://feed" .standard [ordersRecord] (.new .standard .strict)

/-- A second hash asks for the channel. -/
def fillsRequest : Request :=
  ((Request.persistent "fills" (.str "orders")).withKey (some "orders")).asPrivate

/-- The channel is sent again after the login, and joined by the second hash. -/
def joiningOrders : List Step :=
  [.opened 0, .advance 0, .settle "auth" (.ok (.message .null)), .advance 0,
    .begin (.subscribe fillsRequest)]

theorem joined_after_restoring :
    let before := restoredOrders.run loginAdapter joiningOrders
    let after := before.after loginAdapter (.advance 1)
    before.Grants loginAdapter 1 fillsRequest ∧ after.connection.state = .opened ∧
    after.isRestoring = false ∧
    restoredOrders.persists loginAdapter (joiningOrders ++ [.advance 1]) = true ∧
    ("orders", ordersRecord.join "fills") ∈ after.ledger.subscriptions.records.entries ∧
    .frame ordersRecord.request ∈ after.ledger.outbox := by
  intro before after
  have hgrants : before.Grants loginAdapter 1 fillsRequest := ⟨rfl, ⟨_, rfl, rfl⟩, _, rfl⟩
  have hentries : after.ledger.subscriptions.records.entries =
      [("orders", ordersRecord.join "fills")] := rfl
  have hm : ("orders", ordersRecord.join "fills") ∈
      after.ledger.subscriptions.records.entries := hentries ▸ List.mem_singleton_self _
  obtain ⟨-, hframes⟩ := granted_subscription_requested loginAdapter "ws://feed" .standard
    [ordersRecord] (.new .standard .strict) joiningOrders 1 fillsRequest hgrants rfl rfl
  exact ⟨hgrants, rfl, rfl, rfl, hm, (hframes _ hm rfl).2 (by decide) (.inr rfl)⟩

/-- The login fails that it takes to send the channel again. Later on a login succeeds, and the
channel is asked for once more. -/
def silencedOrders : List Step :=
  [.opened 0, .advance 0, .settle "auth" (.error (.transport .notConnected)), .advance 0,
    .begin (.subscribe (Request.persistent "orders" (.str "orders")).asPrivate), .advance 1,
    .settle "auth" (.ok (.message .null))]

/-- The channel is on record, so that nothing is sent: only the two logins have been. -/
theorem failed_login_silences_channel :
    let before := restoredOrders.run loginAdapter silencedOrders
    let after := before.after loginAdapter (.advance 1)
    before.Grants loginAdapter 1 (Request.persistent "orders" (.str "orders")).asPrivate ∧
    after.connection.state = .opened ∧ after.isRestoring = false ∧
    after.ledger.subscriptions.records.entries = [("orders", ordersRecord)] ∧
    ordersRecord.answers "orders" = true ∧ .frame ordersRecord.request ∉ after.ledger.outbox := by
  intro before after
  have houtbox : after.ledger.outbox = [.frame (.str "login"), .frame (.str "login")] := rfl
  refine ⟨⟨rfl, ⟨_, rfl, rfl⟩, _, rfl⟩, rfl, rfl, rfl, rfl, fun hm => ?_⟩
  rw [houtbox] at hm
  simp [ordersRecord] at hm

end Station

end MarketFeed
