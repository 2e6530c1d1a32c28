import MarketFeed.Proofs.Connection.Requests

/-!
# Which connections have ever opened

A connection has opened once its socket has: no other step of its tasks and of its callers makes it
one that has, and none makes it one that has not. Nor does any of them report a wait before a dial,
which is up to those who make connections.
-/

namespace MarketFeed

namespace Connection

lemma everOpened_takeRequest (connection : Connection) (request : Request) :
    (connection.takeRequest request).2.everOpened = connection.everOpened := by
  have htaking := connection.taking request
  generalize connection.takeRequest request = taken at htaking ⊢
  cases htaking with
  | sent => exact congrArg Ledger.everOpened (connection.ledger_ask request)
  | refused => rfl
  | joined => exact congrArg Ledger.everOpened (ledger_enter _ request)
  | added => exact congrArg Ledger.everOpened (ledger_ask _ request)

end Connection

namespace Call

lemma everOpened_complete (call : Call) (connection : Connection) :
    (call.complete connection).2.everOpened = connection.everOpened := by
  unfold complete
  cases call.purpose with
  | subscribe request => exact connection.everOpened_takeRequest request
  | authenticate => rfl
  | restore records => exact congrArg Ledger.everOpened (connection.ledger_resend records)

lemma everOpened_endTurn (call : Call) (connection : Connection) (result : Except Fault Unit) :
    (call.endTurn connection result).2.everOpened = connection.everOpened := by
  unfold endTurn
  cases result with
  | ok => exact call.everOpened_complete _
  | error fault => rfl

lemma everOpened_judge (login : Login) (call : Call) (waiter : Waiter) (connection : Connection) :
    (call.judge login waiter connection).2.everOpened = connection.everOpened := by
  unfold judge
  cases connection.registry.take waiter with
  | mk arrival taken =>
    cases arrival with
    | nothingYet => rfl
    | delivery delivery => exact call.everOpened_endTurn _ _
    -- the channel has ended
    | _ => exact call.everOpened_endTurn connection _

lemma everOpened_logIn (adapter : Adapter) (call : Call) (connection : Connection) :
    (call.logIn adapter connection).2.everOpened = connection.everOpened := by
  unfold logIn
  cases connection.ready? with
  | none => rfl
  | some ready =>
    cases ready with
    | error fault => exact call.everOpened_endTurn connection _
    | ok =>
      cases adapter.login with
      | none => exact call.everOpened_endTurn connection _
      | some login =>
        have htaken := connection.everOpened_takeRequest login.request
        dsimp only
        cases hr : connection.takeRequest login.request with
        | mk result taken =>
          rw [hr] at htaken
          cases result with
          | error fault => exact (call.everOpened_endTurn taken _).trans htaken
          | ok waiter => exact (call.everOpened_judge login waiter taken).trans htaken

lemma everOpened_takeTurn (adapter : Adapter) (call : Call) (connection : Connection) :
    (call.takeTurn adapter connection).2.everOpened = connection.everOpened := by
  have hjoined : (call.joinQueue connection).everOpened = connection.everOpened :=
    congrArg Ledger.everOpened (call.ledger_joinQueue connection)
  unfold takeTurn
  split
  · exact call.everOpened_complete _
  · dsimp only
    split
    · exact (call.everOpened_logIn adapter _).trans hjoined
    · exact hjoined

lemma everOpened_advance (adapter : Adapter) (call : Call) (connection : Connection) :
    (call.advance adapter connection).2.everOpened = connection.everOpened := by
  unfold advance
  cases call.stage with
  | awaitingOpen =>
    dsimp only
    cases connection.ready? with
    | none => rfl
    | some ready =>
      cases ready with
      | error fault => rfl
      | ok =>
        dsimp only
        split
        · exact call.everOpened_takeTurn adapter connection
        · exact call.everOpened_complete connection
  | awaitingTurn => exact call.everOpened_takeTurn adapter connection
  | holdingTurn => exact call.everOpened_logIn adapter connection
  | loggingIn waiter =>
    dsimp only
    cases adapter.login with
    | some login => exact call.everOpened_judge login waiter connection
    | none => exact call.everOpened_endTurn connection _

end Call

def ConnectionEvent.isBackoff : ConnectionEvent → Bool
  | backoff _ _ _ => true
  | _ => false

namespace Circuit

/-! Frames bring no events. -/

lemma events_conclude (circuit : Circuit) (dispatch : Dispatch) (result : Except Stop Unit) :
    (circuit.conclude dispatch result).2.events = circuit.events := by
  unfold conclude
  cases result with
  | ok => rfl
  | error stop =>
    cases stop with
    | overflow overflow => rfl
    | fault fault =>
      dsimp only
      split <;> rfl

lemma events_dispatch (adapter : Adapter) (circuit : Circuit) (now : Int) (frame : Json) :
    (circuit.dispatch adapter now frame).2.events = circuit.events := by
  unfold dispatch
  split
  · rfl
  · cases adapter.classify frame with
    | some error =>
      change (circuit.applyFrameError error).2.events = circuit.events
      unfold applyFrameError
      cases error.scope <;> rfl
    | none =>
      dsimp only
      cases (adapter.streamKind frame).bind adapter.handlers.get? with
      | none => rfl
      | some handler => exact circuit.events_conclude _ _

lemma events_takeText (adapter : Adapter) (circuit : Circuit) (now : Int) (text : String) :
    (circuit.takeText adapter now text).2.events = circuit.events := by
  unfold takeText
  dsimp only
  cases Json.parse text with
  | ok frame => exact events_dispatch adapter _ now frame
  | error fault => rfl

lemma events_takeBytes (adapter : Adapter) (circuit : Circuit) (now : Int) (bytes : List UInt8) :
    (circuit.takeBytes adapter now bytes).2.events = circuit.events := by
  unfold takeBytes
  cases String.fromUTF8? ⟨bytes.toArray⟩ with
  | some text => exact events_takeText adapter circuit now text
  | none => rfl

lemma backoffs_emit (circuit : Circuit) {event : ConnectionEvent} (h : event.isBackoff = false) :
    (circuit.emit event).events.filter (·.isBackoff) = circuit.events.filter (·.isBackoff) := by
  rw [emit, List.filter_append, List.filter_singleton, h]
  exact List.append_nil _

lemma backoffs_opened (circuit : Circuit) (now : Int) :
    (circuit.opened now).2.events.filter (·.isBackoff) =
      circuit.events.filter (·.isBackoff) := by
  unfold opened
  dsimp only
  split
  · rfl
  · split
    · rfl
    · split
      · exact (backoffs_emit _ rfl).trans (backoffs_emit _ rfl)
      · exact backoffs_emit _ rfl

/-! To close a connection does not open it. -/

lemma everOpened_close (circuit : Circuit) :
    circuit.close.connection.everOpened = circuit.connection.everOpened := by
  have hsaid : circuit.sayClose.2.connection.everOpened = circuit.connection.everOpened := by
    unfold sayClose
    dsimp only
    split <;> rfl
  change (circuit.sayClose.2.teardown _).2.connection.everOpened = _
  unfold teardown beginTeardown
  by_cases hclosed : circuit.sayClose.2.connection.closeFault.isSome = true
  · rw [if_pos hclosed]
    exact hsaid
  · rw [if_neg hclosed]
    exact hsaid

lemma backoffs_close (circuit : Circuit) :
    circuit.close.events.filter (·.isBackoff) = circuit.events.filter (·.isBackoff) := by
  have hsaid : circuit.sayClose.2.events = circuit.events := by
    unfold sayClose
    dsimp only
    split <;> rfl
  change (circuit.sayClose.2.teardown _).2.events.filter _ = _
  rw [← hsaid]
  unfold teardown beginTeardown
  by_cases hclosed : circuit.sayClose.2.connection.closeFault.isSome = true
  · rw [if_pos hclosed]
  · rw [if_neg hclosed]
    exact backoffs_emit _ rfl

end Circuit

namespace Station

variable {adapter : Adapter} {station : Station}

def Step.opens : Step → Bool
  | .opened _ => true
  | _ => false

lemma everOpened_eq (adapter : Adapter) (station : Station) (step : Step) :
    (station.after adapter step).connection.everOpened =
      (station.connection.everOpened || step.opens) := by
  have hafter : (station.after adapter step).connection.everOpened = _ :=
    congrArg Ledger.everOpened (ledger_after adapter station step)
  rw [hafter]
  -- most steps leave the ledger alone, or queue and release at most
  have hkept : (station.work adapter step).2.ledger.everOpened = station.connection.everOpened →
      step.opens = false → (station.work adapter step).2.ledger.everOpened =
        (station.connection.everOpened || step.opens) := by
    intro hsame hopens
    rw [hsame, hopens, Bool.or_false]
  cases step with
  | opened now =>
    change (station.circuit.opened now).2.connection.ledger.everOpened = _
    cases ho : station.connection.everOpened with
    | true =>
      rw [Circuit.opened_of_everOpened _ _ ho]
      exact ho
    | false =>
      rw [(station.circuit.opened_ledger now ho).1]
      rfl
  | advance index =>
    refine hkept ?_ rfl
    rw [work]
    cases station.calls[index]? with
    | none => rfl
    | some progress =>
      cases progress with
      | done result => rfl
      | blocked call => exact call.everOpened_advance adapter station.connection
  | unsubscribe hash =>
    exact hkept (station.connection.leads_unsubscribe adapter rfl).frame.1 rfl
  | send frame => exact hkept (station.connection.leads_send (.send frame) frame).frame.1 rfl
  | text now text =>
    exact hkept (congrArg Ledger.everOpened (station.circuit.ledger_takeText adapter now text)) rfl
  | bytes now bytes =>
    exact hkept (congrArg Ledger.everOpened (station.circuit.ledger_takeBytes adapter now bytes)) rfl
  | dial delayed =>
    refine hkept ?_ rfl
    rw [work, Circuit.dial]
    dsimp only
    split <;> rfl
  | close =>
    refine hkept ?_ rfl
    rw [work, Circuit.sayClose]
    dsimp only
    split <;> rfl
  | finish =>
    refine hkept ?_ rfl
    rw [work]
    dsimp only
    split <;> rfl
  | _ => exact hkept rfl rfl

lemma backoffs_after (adapter : Adapter) (station : Station) (step : Step) :
    (station.after adapter step).circuit.events.filter (·.isBackoff) =
      station.circuit.events.filter (·.isBackoff) := by
  have hafter : (station.after adapter step).circuit.events =
      (station.work adapter step).2.circuit.events := by
    unfold after
    cases hw : station.work adapter step with
    | mk fault worked =>
      cases fault with
      | none => rfl
      | some fault =>
        dsimp only [Circuit.beginTeardown]
        split <;> rfl
  rw [hafter]
  cases step with
  | opened now => exact station.circuit.backoffs_opened now
  | dial delayed =>
    rw [work, Circuit.dial]
    dsimp only
    split
    · rfl
    · exact Circuit.backoffs_emit _ rfl
  | text now text => exact congrArg _ (station.circuit.events_takeText adapter now text)
  | bytes now bytes => exact congrArg _ (station.circuit.events_takeBytes adapter now bytes)
  | silence elapsed => exact Circuit.backoffs_emit _ rfl
  | close =>
    rw [work, Circuit.sayClose]
    dsimp only
    split <;> rfl
  | finish =>
    rw [work]
    dsimp only
    split
    · exact Circuit.backoffs_emit _ rfl
    · rfl
  | advance index =>
    rw [work]
    cases station.calls[index]? with
    | none => rfl
    | some progress => cases progress <;> rfl
  | _ => rfl

end Station

end MarketFeed
