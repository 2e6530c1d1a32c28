import MarketFeed.Proofs.Connection.Lifespan

/-!
# Waiters on closed connections

Closing a connection empties its registry. A call that waits for the socket or for its turn to log
in looks at the connection again when it goes on, and fails. A call whose login is over does not: if
it goes on after the connection has been closed, it enters a waiter that nobody will ever serve.
-/

namespace MarketFeed

/-! A request that is taken although the socket is not open. -/

/-- Whether the key of a request is new, if the request can be recorded at all. -/
def Subscriptions.admits (subscriptions : Subscriptions) (request : Request) : Except Fault Bool :=
  (subscriptions.tryAdd request.messageHash request.frame request.subscriptionKey
    request.isPrivate).1

/-- What becomes of the caller of such a request, and of the registry. -/
inductive Stray (request : Request) (admitted : Except Fault Bool) (entries : Table String Entry) :
    Except Fault Waiter → Registry Update → Prop
  /-- It cannot be recorded, and leaves nothing behind. -/
  | refused {fault : Fault} {after : Registry Update} (hk : request.kind = .persistent)
      (ha : admitted = .error fault) (hr : after.entries = entries) :
      Stray request admitted entries (.error fault) after
  /-- Its frame cannot be sent. Its entry stays. -/
  | unsent {after : Registry Update} (ha : request.kind = .persistent → admitted = .ok true)
      (hr : after.contains request.messageHash = true) :
      Stray request admitted entries (.error (.transport .notConnected)) after
  /-- Its key is on record, so that nothing has to be sent. The caller gets a waiter. -/
  | orphaned {waiter : Waiter} {after : Registry Update} (hk : request.kind = .persistent)
      (ha : admitted = .ok false) (hw : waiter.hash = request.messageHash)
      (hr : after.Enters waiter) : Stray request admitted entries (.ok waiter) after

namespace Connection

variable {connection : Connection}

lemma sendFor_of_not_open (h : connection.state ≠ .opened) (waiter : Waiter) (frame : Json) :
    connection.sendFor waiter frame = (.error (.transport .notConnected),
      { connection with registry := connection.registry.discard waiter }) := by
  unfold sendFor send
  rw [if_neg (by simpa [isOpen] using h)]

/-- The entry of a request is made before its frame is sent, and stays if that fails. -/
lemma stray_sendFor {request : Request} {admitted : Except Fault Bool}
    (h : connection.state ≠ .opened) (ha : request.kind = .persistent → admitted = .ok true)
    (entries : Table String Entry) :
    Stray request admitted entries
      ((connection.register request).2.sendFor (connection.register request).1 request.frame).1
      ((connection.register request).2.sendFor (connection.register request).1
        request.frame).2.registry := by
  have hs : (connection.register request).2.state ≠ .opened := h
  rw [sendFor_of_not_open hs]
  refine .unsent ha ?_
  rw [Registry.contains_eq, Registry.entries_discard, ← Registry.contains_eq]
  exact Registry.contains_register ..

lemma stray_ask {request : Request} {admitted : Except Fault Bool} (h : connection.state ≠ .opened)
    (ha : request.kind = .persistent → admitted = .ok true) (entries : Table String Entry) :
    Stray request admitted entries (connection.ask request).1
      (connection.ask request).2.registry := by
  have hs : (connection.markPrivate request).state ≠ .opened :=
    (serves_markPrivate connection request).state ▸ h
  exact stray_sendFor hs ha entries

lemma stray_takeRequest (h : connection.state ≠ .opened) (request : Request) :
    Stray request (connection.subscriptions.admits request) connection.registry.entries
      (connection.takeRequest request).1 (connection.takeRequest request).2.registry := by
  have hadmits : connection.subscriptions.admits request =
      (connection.subscriptions.add request).1 := rfl
  have htaking := connection.taking request
  generalize connection.takeRequest request = taken at htaking ⊢
  rw [hadmits]
  cases htaking with
  | sent hk => exact stray_ask h (fun hp => absurd (hk.symm.trans hp) (by simp)) _
  | refused hk ha => exact .refused hk (congrArg Prod.fst ha) rfl
  | @joined front back record subscriptions hk ha =>
    unfold enter register
    rw [hk]
    obtain ⟨hhash, henters⟩ := Registry.enters_register
      ({ connection with subscriptions }.markPrivate request).registry request.messageHash
    exact .orphaned hk (congrArg Prod.fst ha) hhash henters
  | @added subscriptions hk ha =>
    have hs : ({ connection with subscriptions } : Connection).state ≠ .opened := h
    exact stray_ask hs (fun _ => congrArg Prod.fst ha) _

end Connection

namespace Call

/-- The call has nothing to wait for any more, and does not look at the socket again. -/
def isCleared (adapter : Adapter) (call : Call) (connection : Connection) : Bool :=
  match call.stage with
  | .awaitingOpen | .holdingTurn => false
  | .awaitingTurn => connection.authenticated
  | .loggingIn waiter =>
    match adapter.login, (connection.registry.take waiter).1 with
    | none, _ => true
    | some login, .delivery delivery => (delivery.bind login.accept).isOk
    | _, _ => false

variable {adapter : Adapter} {call : Call} {connection : Connection}

/-- A call that is cleared does what it is for. -/
lemma advance_of_cleared (h : call.isCleared adapter connection = true) : ∃ served,
    connection.Serves [] [] served ∧ served.subscriptions = connection.subscriptions ∧
      served.registry.entries = connection.registry.entries ∧
      call.advance adapter connection = call.complete served := by
  unfold isCleared at h
  unfold advance
  cases hstage : call.stage with
  | awaitingOpen => exact absurd h (by simp [hstage])
  | holdingTurn => exact absurd h (by simp [hstage])
  | awaitingTurn =>
    rw [hstage] at h
    refine ⟨call.leaveQueue connection, call.serves_leaveQueue connection, rfl, rfl, ?_⟩
    dsimp only
    rw [takeTurn, if_pos h]
  | loggingIn waiter =>
    rw [hstage] at h
    dsimp only at h ⊢
    cases hlogin : adapter.login with
    | none =>
      refine ⟨{ call.leaveQueue connection with authenticated := true }, ?_, rfl, rfl, rfl⟩
      exact .of_eq rfl rfl
    | some login =>
      rw [hlogin] at h
      dsimp only at h ⊢
      unfold judge
      cases ht : connection.registry.take waiter with
      | mk arrival taken =>
        rw [ht] at h
        cases arrival with
        | delivery delivery =>
          dsimp only at h ⊢
          cases hresult : delivery.bind login.accept with
          | error fault => exact absurd h (by simp [hresult, Except.isOk, Except.toBool])
          | ok =>
            let dropped := { connection with registry := connection.registry.discard taken }
            have hdropped : connection.Serves [] [] dropped := Connection.serves_discard_taken ht
            refine ⟨{ call.leaveQueue dropped with authenticated := true }, ?_, rfl, ?_, rfl⟩
            · exact hdropped.trans (.of_eq rfl rfl)
            · exact Registry.entries_discard connection.registry taken
        | _ => exact absurd h (by simp)

lemma ready?_joinQueue (call : Call) (connection : Connection) :
    (call.joinQueue connection).ready? = connection.ready? := by
  unfold joinQueue
  split <;> rfl

lemma serves_logIn_closed {fault : Fault} (hr : connection.ready? = some (.error fault))
    (adapter : Adapter) (call : Call) :
    connection.Serves [] [] (call.logIn adapter connection).2 := by
  unfold logIn
  rw [hr]
  exact call.serves_leaveQueue connection

/-- On a closed connection a call that is not cleared registers nothing. -/
lemma serves_advance_closed {fault : Fault} (hr : connection.ready? = some (.error fault))
    (hc : call.isCleared adapter connection = false) :
    connection.Serves [] [] (call.advance adapter connection).2 := by
  unfold isCleared at hc
  unfold advance
  cases hstage : call.stage with
  | awaitingOpen =>
    dsimp only
    rw [hr]
    exact .refl connection
  | holdingTurn => exact serves_logIn_closed hr adapter call
  | awaitingTurn =>
    rw [hstage] at hc
    have hjoined := call.serves_joinQueue connection
    have hready := (call.ready?_joinQueue connection).trans hr
    dsimp only
    rw [takeTurn, if_neg (by simp [hc])]
    dsimp only
    split
    · exact hjoined.trans (serves_logIn_closed hready adapter call)
    · exact hjoined
  | loggingIn waiter =>
    rw [hstage] at hc
    dsimp only at hc ⊢
    cases hlogin : adapter.login with
    | none => exact absurd hc (by simp [hlogin])
    | some login =>
      rw [hlogin] at hc
      dsimp only at hc ⊢
      unfold judge
      cases ht : connection.registry.take waiter with
      | mk arrival taken =>
        rw [ht] at hc
        cases arrival with
        | nothingYet => exact .refl connection
        | delivery delivery =>
          dsimp only at hc ⊢
          cases hresult : delivery.bind login.accept with
          | error fault =>
            exact (Connection.serves_discard_taken ht).trans (call.serves_leaveQueue _)
          | ok => exact absurd hc (by simp [hresult, Except.isOk, Except.toBool])
        | _ => exact call.serves_leaveQueue connection

lemma serves_advance_of_joins {fault : Fault} (hr : connection.ready? = some (.error fault))
    (h : call.isCleared adapter connection = true → call.purpose.joins = []) :
    connection.Serves [] [] (call.advance adapter connection).2 := by
  cases hc : call.isCleared adapter connection with
  | false => exact serves_advance_closed hr hc
  | true =>
    obtain ⟨served, hserved, -, -, hadvance⟩ := advance_of_cleared hc
    have hcompleted := call.serves_complete served
    rw [h hc] at hcompleted
    rw [hadvance]
    exact hserved.trans hcompleted

end Call

namespace Station

/-- A subscription goes on after the connection has been closed, and does not notice. -/
def isLate (adapter : Adapter) (station : Station) : Step → Bool
  | .advance index =>
    match station.calls[index]? with
    | some (.blocked call) =>
      station.connection.state = .closed && !call.purpose.joins.isEmpty &&
        call.isCleared adapter station.connection
    | _ => false
  | _ => false

/-- None of the steps is late when it comes to it. -/
def isOnTime (adapter : Adapter) (station : Station) : List Step → Bool
  | [] => true
  | step :: rest =>
    !station.isLate adapter step && (station.after adapter step).isOnTime adapter rest

/-- The steps with which the tasks of a connection close it. -/
def Step.closes : Step → Bool
  | .fail _ | .close | .silence _ | .finish => true
  | _ => false

/-- Nobody waits once the connection is closed. -/
def IsDeserted (station : Station) : Prop :=
  station.connection.state = .closed → ∀ hash, station.registry.entries.get? hash = none

variable {adapter : Adapter} {station : Station} {step : Step} {steps : List Step} {index : Nat}
  {call : Call}

lemma after_advance (h : station.calls[index]? = some (.blocked call)) (adapter : Adapter) :
    station.after adapter (.advance index) =
      ⟨{ station.circuit with connection := (call.advance adapter station.connection).2 },
        station.calls.set index (call.advance adapter station.connection).1⟩ := by
  unfold after
  rw [work, h]

/-- On a closed connection nobody is registered by a step that is not late. -/
lemma leads_of_closed (hc : station.connection.state = .closed)
    (hl : station.isLate adapter step = false) :
    ∃ drops, station.registry.Leads drops [] (station.after adapter step).registry := by
  -- it is a call that goes on, if anybody, who registers waiters
  have hothers : station.joins adapter step = [] →
      ∃ drops, station.registry.Leads drops [] (station.after adapter step).registry := by
    intro hj
    have heffect := lifeEffect adapter station step
    generalize station.teardown? adapter step = teardown at heffect
    generalize station.after adapter step = after at heffect ⊢
    cases heffect with
    | served hs => exact ⟨_, hj ▸ hs.connection.registry⟩
    | opened _ _ hr => exact ⟨_, hr⟩
    | begun _ _ hr => exact ⟨_, hj ▸ hr⟩
    | ended hclosing => exact absurd (hc.symm.trans hclosing) (by simp)
  cases step with
  | advance index =>
    cases hcall : station.calls[index]? with
    | none => exact hothers (by rw [joins, hcall])
    | some progress =>
      cases progress with
      | done result => exact hothers (by rw [joins, hcall])
      | blocked call =>
        have hready : station.connection.ready? = some (.error station.connection.closeReason) := by
          unfold Connection.ready?
          rw [hc]
        have hjoins : call.isCleared adapter station.connection = true →
            call.purpose.joins = [] := by
          intro hcleared
          simpa [isLate, hcall, hc, hcleared] using hl
        rw [after_advance hcall]
        exact ⟨_, (Call.serves_advance_of_joins hready hjoins).registry⟩
  | _ => exact hothers rfl

lemma isDeserted_after (h : station.IsDeserted) (hl : station.isLate adapter step = false) :
    (station.after adapter step).IsDeserted := by
  intro hclosed hash
  by_cases hc : station.connection.state = .closed
  · obtain ⟨drops, hleads⟩ := leads_of_closed hc hl
    exact hleads.get?_eq_none (h hc hash) List.not_mem_nil
  · -- the second step of closing is the only one that leads there, and it empties the registry
    have heffect := lifeEffect adapter station step
    generalize station.teardown? adapter step = teardown at heffect
    generalize station.after adapter step = after at heffect hclosed ⊢
    cases heffect with
    | served hs => exact absurd (hs.connection.state.symm.trans hclosed) hc
    | opened _ hlife => exact absurd ((congrArg Life.state hlife).symm.trans hclosed) (by simp)
    | begun _ hlife => exact absurd ((congrArg Life.state hlife).symm.trans hclosed) (by simp)
    | ended _ _ hr =>
      rw [hr]
      exact Registry.get?_rejectAll ..

lemma isDeserted_run (h : station.IsDeserted) (hl : station.isOnTime adapter steps = true) :
    (station.run adapter steps).IsDeserted := by
  induction steps generalizing station with
  | nil => exact h
  | cons step rest ih =>
    rw [isOnTime, Bool.and_eq_true, Bool.not_eq_true'] at hl
    exact ih (isDeserted_after h hl.1) hl.2

/-- A connection that is closed is not closed once more. -/
lemma connection_after_of_closes (h : station.Sound) (hc : station.connection.state = .closed)
    (hs : step.closes = true) : (station.after adapter step).connection = station.connection := by
  have hfault : station.connection.closeFault.isSome = true := by
    rw [Option.isSome_iff_ne_none, ne_eq, ← h.live, hc]
    simp [Lifecycle.isLive]
  have hrefused : ∀ (circuit : Circuit) (fault : Fault), circuit.connection = station.connection →
      (circuit.beginTeardown fault).2.connection = station.connection := by
    intro circuit fault hsame
    unfold Circuit.beginTeardown
    rw [hsame, if_pos hfault]
    exact hsame
  cases step with
  | fail fault => exact hrefused station.circuit fault rfl
  | close =>
    have hclosed : station.circuit.connection.state = .closed := hc
    have hquiet : station.circuit.sayClose.2 = station.circuit := by
      unfold Circuit.sayClose
      exact if_neg (by simp [Connection.isOpen, hclosed])
    exact hrefused station.circuit.sayClose.2 _ (congrArg Circuit.connection hquiet)
  | silence elapsed => exact hrefused (station.circuit.reportSilence elapsed).2 _ rfl
  | finish =>
    unfold after
    rw [work, if_neg (by simp [hc])]
  | _ => exact absurd hs (by simp [Step.closes])

lemma connection_run_of_closes (h : station.Sound) (hc : station.connection.state = .closed)
    (hs : ∀ step ∈ steps, step.closes = true) :
    (station.run adapter steps).connection = station.connection := by
  induction steps generalizing station with
  | nil => rfl
  | cons step rest ih =>
    have hsame : (station.after adapter step).connection = station.connection :=
      connection_after_of_closes h hc (hs step (List.mem_cons_self ..))
    have hrest := ih (sound_after h step) (hsame ▸ hc) fun other hm =>
      hs other (List.mem_cons_of_mem _ hm)
    exact hrest.trans hsame

/-- A request that goes on too late. -/
lemma stray_of_late {request : Request} (hc : station.connection.state = .closed)
    (hcall : station.calls[index]? = some (.blocked call)) (hp : call.purpose = .subscribe request)
    (hcleared : call.isCleared adapter station.connection = true) : ∃ result,
    (station.after adapter (.advance index)).calls[index]? = some (.done (result.map some)) ∧
    Stray request (station.connection.subscriptions.admits request) station.registry.entries result
      (station.after adapter (.advance index)).registry := by
  obtain ⟨served, hserved, hsubscriptions, hentries, hadvance⟩ := Call.advance_of_cleared hcleared
  have hopen : served.state ≠ .opened := by
    rw [hserved.state, hc]
    simp
  have hstray := Connection.stray_takeRequest hopen request
  have hcomplete : call.complete served = (.done ((served.takeRequest request).1.map some),
      (served.takeRequest request).2) := by
    unfold Call.complete
    rw [hp]
  obtain ⟨hlt, -⟩ := List.getElem?_eq_some_iff.mp hcall
  rw [hsubscriptions, hentries] at hstray
  rw [after_advance hcall, hadvance, hcomplete]
  exact ⟨(served.takeRequest request).1, List.getElem?_set_self hlt, hstray⟩

/-- When a connection is closed nobody is left who waits, unless a subscription goes on after that
whose login is over. Such a subscription does not look at the connection again: if it can be
recorded at all it leaves an entry, and if its key is on record its caller gets a waiter. To close
the connection once more changes nothing of this. -/
theorem orphans_only_of_late_calls (adapter : Adapter) (url : String)
    (settings : ConnectionSettings) (records : List SubscriptionRecord) (store : FeedStore)
    (steps : List Step) :
    let start := new url settings records store
    let reached := start.run adapter steps
    reached.connection.state = .closed →
    (start.isOnTime adapter steps = true → reached.registry.size = 0) ∧
    (∀ late, (∀ step ∈ late, step.closes = true) →
      (reached.run adapter late).registry = reached.registry) ∧
    ∀ index call request, reached.calls[index]? = some (.blocked call) →
      call.purpose = .subscribe request → call.isCleared adapter reached.connection = true →
      ∃ result, (reached.after adapter (.advance index)).calls[index]? =
          some (.done (result.map some)) ∧
        Stray request (reached.connection.subscriptions.admits request) reached.registry.entries
          result (reached.after adapter (.advance index)).registry := by
  intro start reached hclosed
  have hsound : reached.Sound := sound_run (sound_new url settings records store) steps
  have hstart : start.IsDeserted := by
    intro hc
    exact absurd hc (by simp [start, new, connection, Connection.new])
  refine ⟨fun hl => ?_, fun late hs => ?_, fun index call request => stray_of_late hclosed⟩
  · exact Table.size_eq_zero (isDeserted_run hstart hl hclosed)
  · exact congrArg Connection.registry (connection_run_of_closes hsound hclosed hs)

/-- A connection is closed when the answer to a login has come and the call has not looked at it
yet. The key of the call is on record from an earlier connection, so that the call gets a waiter. -/
theorem restored_key_after_close :
    let adapter := { Adapter.plain with
      login := some ⟨.oneShot "auth" .null, fun _ => .ok ()⟩ }
    let request := ((Request.persistent "fills" .null).withKey (some "k")).asPrivate
    let start := new "ws://feed" .standard [⟨"orders", ["orders"], .null, some "k", true, 0⟩]
      (.new .standard .strict)
    let steps : List Step := [.dial false, .opened 0, .begin (.subscribe request), .advance 1,
      .settle "auth" (.ok (.message .null)), .fail (.transport .notConnected), .finish]
    let reached := start.run adapter steps
    start.isOnTime adapter steps = true ∧ reached.registry.size = 0 ∧
    (reached.run adapter [.close, .silence 0, .finish]).registry = reached.registry ∧
    ∃ waiter, (reached.after adapter (.advance 1)).calls[1]? = some (.done (.ok (some waiter))) ∧
      (reached.after adapter (.advance 1)).registry.Enters waiter := by
  dsimp only
  obtain ⟨hempty, hagain, hlate⟩ := orphans_only_of_late_calls
    { Adapter.plain with login := some ⟨.oneShot "auth" .null, fun _ => .ok ()⟩ } "ws://feed"
    .standard [⟨"orders", ["orders"], .null, some "k", true, 0⟩] (.new .standard .strict)
    [.dial false, .opened 0,
      .begin (.subscribe ((Request.persistent "fills" .null).withKey (some "k")).asPrivate),
      .advance 1, .settle "auth" (.ok (.message .null)), .fail (.transport .notConnected), .finish]
    rfl
  refine ⟨rfl, hempty rfl, hagain _ (by simp [Step.closes]), ?_⟩
  obtain ⟨result, hdone, hstray⟩ := hlate 1 _ _ rfl rfl rfl
  cases hstray with
  | refused _ ha => exact absurd (show Except.ok false = Except.error _ from ha) (by simp)
  | unsent ha => exact absurd (show Except.ok false = Except.ok true from ha rfl) (by simp)
  | @orphaned waiter _ _ _ _ hr => exact ⟨waiter, hdone, hr⟩

/-- Two calls wait for the same login when the connection is closed, and go on after that. The first
one fails and leaves its record and its entry. The second one gets a waiter. -/
theorem late_login_orphans_waiter :
    let adapter := { Adapter.plain with
      login := some ⟨.oneShot "auth" .null, fun _ => .ok ()⟩ }
    let request := fun hash => ((Request.persistent hash .null).withKey (some "k")).asPrivate
    let steps : List Step := [.dial false, .opened 0, .begin (.subscribe (request "orders")),
      .advance 0, .begin (.subscribe (request "fills")), .advance 1,
      .settle "auth" (.ok (.message .null)), .fail (.transport .notConnected), .finish,
      .advance 0, .advance 1]
    let reached := (new "ws://feed" .standard [] (.new .standard .strict)).run adapter steps
    reached.connection.state = .closed ∧ reached.registry.entries.keys = ["orders", "fills"] ∧
    reached.calls[0]? = some (.done (.error (.transport .notConnected))) ∧
    reached.calls[1]? = some (.done (.ok (some ⟨"fills", .receiver 1 0⟩))) ∧
    reached.registry.Enters ⟨"fills", .receiver 1 0⟩ := by
  dsimp only
  refine ⟨rfl, rfl, rfl, rfl, rfl⟩

end Station

end MarketFeed
