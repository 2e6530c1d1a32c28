import MarketFeed.Proofs.Connection.Findings
import MarketFeed.Proofs.Connection.PrivateErrors

/-!
# What becomes of a handled frame

What a handler has queued is given out when it is done, and only if it has not failed. Of a handler
that fails the rejections alone are given out, and its fault goes to all other hashes that it has
declared. If the fault ends the connection, nothing is given out, and it is the end of everybody who
waits.
-/

namespace MarketFeed

namespace Station

variable {adapter : Adapter} {station : Station} {step : Step} {findings : List Finding}
  {result : Except Stop Unit} {fault : Fault}

/-- The step brings a frame to a handler, which reports the findings and ends with the result. -/
def Handles (adapter : Adapter) (station : Station) (step : Step) (findings : List Finding)
    (result : Except Stop Unit) : Prop :=
  ∃ frame dispatch, step.frame? = some frame ∧
    station.circuit.handled adapter frame = some (result, dispatch) ∧
    (Dispatch.new station.connection.url station.circuit.store).Hears findings dispatch

/-- Between the two stations nothing has happened to the connection and its waiters but that the
deliveries were made, in this order. -/
structure Gives (before : Station) (given : List (String × Delivery Update)) (after : Station) :
    Prop where
  life : after.connection.life = before.connection.life
  registry : after.registry = before.registry.giveAll given
  /-- Those who wait find what is left of the deliveries for their hash. -/
  waiters : ∀ waiter, before.registry.Awaits waiter →
    before.registry.Gets waiter (sentTo waiter.hash given) after.registry
  /-- Nobody finds anything else that was not there before. -/
  nothingElse : ∀ waiter delivery, (after.registry.take waiter).1 = .delivery delivery →
    (before.registry.take waiter).1 = .delivery delivery ∨ ∃ hash, (hash, delivery) ∈ given

/-- Nothing has been delivered. The connection ends with the fault, unless it was being closed with
another one before; that is what everybody who waits by the second step of closing finds. -/
structure Ends (adapter : Adapter) (before : Station) (fault : Fault) (after : Station) : Prop where
  registry : after.registry = before.registry
  closing : before.connection.closeFault = none → after.connection.state = .closing
  closed : after.ClosedBy adapter (before.connection.closeFault.getD fault)
  waiters : ∀ late waiter, let last := after.run adapter late
    last.connection.state = .closing → last.registry.Awaits waiter →
    ((last.after adapter .finish).registry.take waiter).1 =
      .delivery (.error (before.connection.closeFault.getD fault))

/-- What the handler has come to is concluded on a connection that has counted a message. -/
lemma Handles.concludes (h : station.Handles adapter step findings result) :
    ∃ (counted : Circuit) (dispatch : Dispatch),
      counted.connection.life = station.connection.life ∧
      counted.connection.registry = station.registry ∧
      (Dispatch.new station.connection.url station.circuit.store).Hears findings dispatch ∧
      station.after adapter step =
        match counted.conclude dispatch result with
        | (none, circuit) => { station with circuit }
        | (some fault, circuit) => { station with circuit := (circuit.beginTeardown fault).2 } := by
  obtain ⟨frame, dispatch, hframe, hhandled, hhears⟩ := h
  obtain ⟨now, size, hwork⟩ := work_of_frame adapter station hframe
  let counted := station.circuit.countReceived now size
  have hcounted : counted.handled adapter frame = some (result, dispatch) := hhandled
  refine ⟨counted, dispatch, rfl, rfl, hhears, ?_⟩
  rw [after, hwork, receive]
  dsimp only
  rw [Circuit.dispatch_of_handled hcounted now]
  rcases counted.conclude dispatch result with ⟨fault | fault, circuit⟩ <;> rfl

lemma Handles.succeeded (h : station.Handles adapter step findings (.ok ())) :
    (station.after adapter step).connection.life = station.connection.life ∧
      (station.after adapter step).registry =
        station.registry.giveAll (findings.filterMap Finding.delivery?) := by
  obtain ⟨counted, dispatch, hlife, hregistry, hhears, hafter⟩ := h.concludes
  rw [hafter, registry, ← hhears.queued, ← hregistry]
  exact ⟨(Connection.serves_settleAll ..).life.trans hlife, Connection.registry_settleAll ..⟩

lemma Handles.failed (h : station.Handles adapter step findings (.error (.fault fault)))
    (hf : fault.isConnectionFatal = false) : ∃ given, Finding.Failed findings fault given ∧
      (station.after adapter step).connection.life = station.connection.life ∧
      (station.after adapter step).registry = station.registry.giveAll given := by
  obtain ⟨counted, dispatch, hlife, hregistry, hhears, hafter⟩ := h.concludes
  refine ⟨Circuit.deliveriesOfFailure dispatch fault, hhears.failed fault, ?_⟩
  unfold Circuit.conclude at hafter
  dsimp only at hafter
  rw [hf] at hafter
  rw [hafter, registry, ← hregistry]
  exact ⟨(Connection.serves_settleAll ..).life.trans hlife, Connection.registry_settleAll ..⟩

lemma Handles.ended (h : station.Handles adapter step findings (.error (.fault fault)))
    (hf : fault.isConnectionFatal = true) :
    (station.after adapter step).registry = station.registry ∧
      (station.after adapter step).connection.life =
        if station.connection.closeFault.isSome then station.connection.life
        else ⟨station.connection.url, .closing, some fault⟩ := by
  obtain ⟨counted, dispatch, hlife, hregistry, -, hafter⟩ := h.concludes
  have hfault : counted.connection.closeFault = station.connection.closeFault :=
    congrArg Life.closeFault hlife
  have hurl : counted.connection.url = station.connection.url := congrArg Life.url hlife
  unfold Circuit.conclude at hafter
  dsimp only at hafter
  rw [hf, if_pos rfl] at hafter
  rw [hafter, registry, ← hregistry, ← hfault, ← hlife, ← hurl]
  unfold Circuit.beginTeardown
  dsimp only
  split <;> exact ⟨rfl, rfl⟩

lemma Gives.of_registry {after : Station} {given : List (String × Delivery Update)}
    (hw : station.registry.Wired) (hq : station.registry.Queued)
    (hl : after.connection.life = station.connection.life)
    (hr : after.registry = station.registry.giveAll given) : station.Gives given after where
  life := hl
  registry := hr
  waiters := fun _ h => hr ▸ Registry.gets_giveAll hw hq h given
  nothingElse := fun _ _ h => Registry.take_giveAll (hr ▸ h)

lemma take_finish {waiter : Waiter} (h : station.Sound)
    (hs : station.connection.state = .closing) (hf : station.connection.closeFault = some fault)
    (ha : station.registry.Awaits waiter) (adapter : Adapter) :
    ((station.after adapter .finish).registry.take waiter).1 = .delivery (.error fault) := by
  rw [registry_finish hs hf]
  exact Registry.take_rejectAll h.wired ha fault

lemma Handles.ends (h : station.Handles adapter step findings (.error (.fault fault)))
    (hs : station.Sound) (hf : fault.isConnectionFatal = true) :
    station.Ends adapter fault (station.after adapter step) := by
  obtain ⟨hregistry, hlife⟩ := h.ended hf
  have hsound : (station.after adapter step).Sound := sound_after hs step
  have hfault : (station.after adapter step).connection.closeFault =
      some (station.connection.closeFault.getD fault) := by
    change (station.after adapter step).connection.life.closeFault = _
    rw [hlife]
    cases hclosed : station.connection.closeFault with
    | none => rfl
    | some first => exact hclosed
  constructor
  · exact hregistry
  · intro hlive
    rw [hlive] at hlife
    exact congrArg Life.state hlife
  · exact hsound.closedBy hfault adapter
  · intro late waiter last hclosing hawaits
    exact take_finish (sound_run hsound late) hclosing (refused_run hfault adapter late).1 hawaits
      adapter

/-- What a handler that succeeds has queued is delivered, all of it and in its order. If it fails
with a fault that does not end the connection, in whatever contexts, the connection lives on and
nobody gets to see what the handler has resolved: its own rejections are delivered, and after them
the fault to each other hash that it has declared. If the fault ends the connection, nothing that is
queued is delivered. -/
theorem failed_handler_resolves_nothing (adapter : Adapter) (url : String)
    (settings : ConnectionSettings) (records : List SubscriptionRecord) (store : FeedStore)
    (steps : List Step) (step : Step) (findings : List Finding) (result : Except Stop Unit) :
    let reached := (new url settings records store).run adapter steps
    let after := reached.after adapter step
    reached.Handles adapter step findings result →
    (result = .ok () → reached.Gives (findings.filterMap Finding.delivery?) after) ∧
    ∀ (cause : Fault) (texts : List String),
      result = .error (.fault (cause.withContexts texts)) →
      (cause.isConnectionFatal = false →
        (∃ given, Finding.Failed findings (cause.withContexts texts) given ∧
          reached.Gives given after) ∧
        ∀ waiter update, (after.registry.take waiter).1 = .delivery (.ok update) →
          (reached.registry.take waiter).1 = .delivery (.ok update)) ∧
      (cause.isConnectionFatal = true → reached.Ends adapter (cause.withContexts texts) after) := by
  intro reached after hhandles
  have hsound : reached.Sound := sound_run (sound_new url settings records store) steps
  have hempty : (new url settings records store).registry.Queued := Registry.queued_empty
  have hqueued : reached.registry.Queued := queued_run hempty adapter steps
  refine ⟨?_, fun cause texts => ?_⟩
  · rintro rfl
    obtain ⟨hlife, hregistry⟩ := hhandles.succeeded
    exact .of_registry hsound.wired hqueued hlife hregistry
  · rintro rfl
    refine ⟨fun hharmless => ?_, fun hfatal => ?_⟩
    · obtain ⟨given, hfailed, hlife, hregistry⟩ :=
        hhandles.failed ((cause.isConnectionFatal_withContexts texts).trans hharmless)
      have hgives : reached.Gives given after := .of_registry hsound.wired hqueued hlife hregistry
      refine ⟨⟨given, hfailed, hgives⟩, fun waiter update htake => ?_⟩
      refine (hgives.nothingElse waiter (.ok update) htake).resolve_right ?_
      rintro ⟨hash, hm⟩
      exact hfailed.not_ok hm
    · exact hhandles.ends hsound ((cause.isConnectionFatal_withContexts texts).trans hfatal)

def refusal : Fault := .cancelled "no such order"

def spoiling : Fault := (Fault.invalidRequest "no price").withContexts ["trade", "trades"]

def stall : Fault := (Fault.timeout "no sequel").withContexts ["trades"]

/-- There are trades and an order is refused, and then the frame turns out to be spoilt. -/
def spoilt (fault : Fault) : List Action :=
  [.affects "ticker", .resolve "trades" .null, .reject "order" refusal, .resolve "order" .null,
    .fail fault]

def spoiltFindings : List Finding :=
  [.affects "ticker", .resolve "trades" (.message .null), .reject "order" refusal,
    .resolve "order" (.message .null)]

/-- An exchange that has nothing but spoilt frames to send. -/
def spoiltAdapter : Adapter :=
  { Adapter.plain with
    streamKind := fun _ => some .trades
    handlers := ⟨[(.trades, fun frame =>
      (spoilt (match frame with | .null => spoiling | _ => stall)).forM Action.run)]⟩ }

/-- Trades and a book are followed, an order and a ticker are asked for once. -/
def askingAround : List Step :=
  [.opened 0, .begin (.subscribe (.persistent "trades" .null)), .advance 0,
    .begin (.subscribe (.oneShot "order" .null)), .advance 1,
    .begin (.subscribe (.oneShot "ticker" .null)), .advance 2,
    .begin (.subscribe (.persistent "book" .null)), .advance 3]

def askedAround : Station :=
  (new "ws://feed" .standard [] (.new .standard .strict)).run spoiltAdapter askingAround

def orderWaiter : Waiter := ⟨"order", .ticket (some 0)⟩

def tickerWaiter : Waiter := ⟨"ticker", .ticket (some 1)⟩

def bookWaiter : Waiter := ⟨"book", .receiver 1 0⟩

lemma awaits_askedAround : askedAround.registry.Awaits tradesWaiter ∧
    askedAround.registry.Awaits orderWaiter ∧ askedAround.registry.Awaits tickerWaiter ∧
    askedAround.registry.Awaits bookWaiter := by
  have hlines : askedAround.registry.line "trades" = some 0 ∧
      askedAround.registry.line "book" = some 1 := by decide +kernel
  have hqueues : 0 ∈ askedAround.registry.queue "order" ∧
      1 ∈ askedAround.registry.queue "ticker" := by decide +kernel
  have hwaiting : askedAround.registry.tickets = [.waiting, .waiting] := rfl
  have hreceiver : ∀ {hash number}, askedAround.registry.line hash = some number →
      askedAround.registry.Awaits ⟨hash, .receiver number 0⟩ := by
    intro hash number hline
    refine ⟨hline, ?_⟩
    rintro number seen ⟨⟩ channel -
    exact Nat.zero_le _
  have hticket : ∀ {hash number}, number ∈ askedAround.registry.queue hash →
      askedAround.registry.tickets[number]? = some .waiting →
      askedAround.registry.Awaits ⟨hash, .ticket (some number)⟩ := fun hm hw =>
    ⟨⟨hm, hw⟩, fun _ _ hc => absurd hc (by simp)⟩
  exact ⟨hreceiver hlines.1, hticket hqueues.1 (by rw [hwaiting]; rfl),
    hticket hqueues.2 (by rw [hwaiting]; rfl), hreceiver hlines.2⟩

/-- Nobody sees the trades of a spoilt frame. The order is refused, whatever came for it later, and
the book is left alone. It is the end for all of them if the fault is one of the connection. -/
theorem spoilt_frame_brings_no_trades :
    let after := askedAround.after spoiltAdapter (.text 0 "null")
    let ended := (askedAround.after spoiltAdapter (.text 0 "true")).after spoiltAdapter .finish
    (after.connection.state = .opened ∧
      (after.registry.take tradesWaiter).1 = .delivery (.error spoiling) ∧
      (after.registry.take orderWaiter).1 = .delivery (.error refusal) ∧
      (after.registry.take tickerWaiter).1 = .delivery (.error spoiling) ∧
      (after.registry.take bookWaiter).1 = .nothingYet) ∧
    (ended.registry.take tradesWaiter).1 = .delivery (.error stall) ∧
    (ended.registry.take orderWaiter).1 = .delivery (.error stall) ∧
    (ended.registry.take tickerWaiter).1 = .delivery (.error stall) ∧
    (ended.registry.take bookWaiter).1 = .delivery (.error stall) := by
  intro after ended
  have houtcome := fun message fault => failed_handler_resolves_nothing spoiltAdapter "ws://feed"
    .standard [] (.new .standard .strict) askingAround (.text 0 message) spoiltFindings
    (.error (.fault fault))
  obtain ⟨htrades, horder, hticker, hbook⟩ := awaits_askedAround
  constructor
  · have hspoilt : askedAround.Handles spoiltAdapter (.text 0 "null") spoiltFindings
        (.error (.fault spoiling)) := ⟨.null, _, rfl, rfl, rfl, rfl⟩
    obtain ⟨⟨given, hfailed, hgives⟩, -⟩ := ((houtcome "null" spoiling hspoilt).2
      (.invalidRequest "no price") ["trade", "trades"] rfl).1 rfl
    have hopened : askedAround.connection.state = .opened := by decide +kernel
    have hpending : (askedAround.registry.take bookWaiter).1 = .nothingYet := rfl
    have htradesSent : sentTo "trades" given = [.error spoiling] :=
      hfailed.missed (.resolve "trades" (.message .null)) (by simp [spoiltFindings])
        (by simp [spoiltFindings, Finding.hash])
    have horderSent : sentTo "order" given = [.error refusal] :=
      hfailed.rejected "order" refusal (by simp [spoiltFindings])
    have htickerSent : sentTo "ticker" given = [.error spoiling] :=
      hfailed.missed (.affects "ticker") (by simp [spoiltFindings])
        (by simp [spoiltFindings, Finding.hash])
    have hbookSent : sentTo "book" given = [] :=
      hfailed.others "book" (by simp [spoiltFindings, Finding.hash])
    have hspared : askedAround.registry.Spared bookWaiter after.registry :=
      Registry.spared_of_gets (hbookSent ▸ hgives.waiters bookWaiter hbook)
    exact ⟨(congrArg Life.state hgives.life).trans hopened,
      Registry.take_of_gets (htradesSent ▸ hgives.waiters tradesWaiter htrades),
      Registry.take_of_gets (horderSent ▸ hgives.waiters orderWaiter horder),
      Registry.take_of_gets (htickerSent ▸ hgives.waiters tickerWaiter hticker),
      (congrArg Prod.fst hspared.take).trans hpending⟩
  · have hstalled : askedAround.Handles spoiltAdapter (.text 0 "true") spoiltFindings
        (.error (.fault stall)) := ⟨.bool true, _, rfl, rfl, rfl, rfl⟩
    have hends : askedAround.Ends spoiltAdapter stall
        (askedAround.after spoiltAdapter (.text 0 "true")) :=
      ((houtcome "true" stall hstalled).2 (.timeout "no sequel") ["trades"] rfl).2 rfl
    have htold : ∀ waiter, askedAround.registry.Awaits waiter →
        (ended.registry.take waiter).1 = .delivery (.error stall) := by
      intro waiter hawaits
      rw [← hends.registry] at hawaits
      exact hends.waiters [] waiter (hends.closing rfl) hawaits
    exact ⟨htold _ htrades, htold _ horder, htold _ hticker, htold _ hbook⟩

end Station

end MarketFeed
