import MarketFeed.Proofs.Connection.Frames
import MarketFeed.Proofs.Connection.Requests

/-!
# The desk of a connection

A call that goes on hands requests to its connection, that of the login and then its own. What the
connection does with each of them is decided by its records and by whether it is open: the request
is recorded or not, its hash is marked as private or not, its frame is queued or not. Of all other
steps some release a hash or queue something, and some bring a frame that writes books.
-/

namespace MarketFeed

lemma mem_insertNew {item other : String} {items : List String} :
    item ∈ insertNew other items ↔ item ∈ items ∨ item = other := by
  unfold insertNew
  split
  · rename_i hm
    have hm : other ∈ items := List.contains_iff_mem.mp hm
    exact ⟨.inl, fun h => h.elim id fun he => he ▸ hm⟩
  · rw [List.mem_append, List.mem_singleton]

lemma mem_foldl_insertNew {item : String} {items added : List String} :
    item ∈ added.foldl (fun items other => insertNew other items) items ↔
      item ∈ items ∨ item ∈ added := by
  induction added generalizing items with
  | nil => exact ⟨.inl, fun h => h.resolve_right List.not_mem_nil⟩
  | cons other rest ih => rw [List.foldl_cons, ih, mem_insertNew, List.mem_cons, or_assoc]

lemma nodup_insertNew {items : List String} (h : items.Nodup) (item : String) :
    (insertNew item items).Nodup := by
  unfold insertNew
  split
  · exact h
  · rename_i hn
    have hn : item ∉ items := fun hm => hn (List.contains_iff_mem.mpr hm)
    exact List.nodup_append.mpr ⟨h, List.nodup_singleton item, fun _ hm _ hitem he =>
      hn (List.mem_singleton.mp hitem ▸ he ▸ hm)⟩

lemma nodup_foldl_insertNew {items : List String} (h : items.Nodup) (added : List String) :
    (added.foldl (fun items item => insertNew item items) items).Nodup := by
  induction added generalizing items with
  | nil => exact h
  | cons item rest ih => exact ih (nodup_insertNew h item)

/-- What a connection keeps of what it is asked for and of what comes in, its waiters aside. -/
structure Desk where
  subscriptions : Subscriptions
  privateHashes : List String
  bookSymbols : List String
  outbox : List Outgoing

namespace Desk

variable {isOpen : Bool} {desk : Desk} {request : Request}

def push (desk : Desk) (outgoing : List Outgoing) : Desk :=
  { desk with outbox := desk.outbox ++ outgoing }

lemma push_nil (desk : Desk) : desk.push [] = desk :=
  congrArg (Desk.mk _ _ _) (List.append_nil _)

lemma push_push (desk : Desk) (first second : List Outgoing) :
    (desk.push first).push second = desk.push (first ++ second) :=
  congrArg (Desk.mk _ _ _) (List.append_assoc ..)

def mark (desk : Desk) (request : Request) : Desk :=
  if request.isPrivate then
    { desk with privateHashes := insertNew request.messageHash desk.privateHashes }
  else desk

/-- Whether a request is taken. One that is to be recorded under a new key needs room. -/
def admits (desk : Desk) (request : Request) : Bool :=
  match request.kind with
  | .oneShot => true
  | .persistent => (desk.subscriptions.add request).1.isOk

/-- Whether the frame of a request has to be sent. -/
def needsFrame (desk : Desk) (request : Request) : Bool :=
  match request.kind with
  | .oneShot => true
  | .persistent => (desk.subscriptions.add request).1 matches .ok true

def enter (desk : Desk) (request : Request) : Desk :=
  match request.kind with
  | .oneShot => desk
  | .persistent => { desk with subscriptions := (desk.subscriptions.add request).2 }

def take (isOpen : Bool) (desk : Desk) (request : Request) : Desk :=
  if desk.admits request then
    ((desk.enter request).mark request).push
      (if isOpen && desk.needsFrame request then [.frame request.frame] else [])
  else desk

lemma take_of_oneShot (hk : request.kind = .oneShot) :
    desk.take isOpen request =
      (desk.mark request).push (if isOpen then [.frame request.frame] else []) := by
  simp only [take, admits, needsFrame, enter, hk, if_true, Bool.and_true]

lemma take_of_ok {isNew : Bool} {subscriptions : Subscriptions}
    (hk : request.kind = .persistent)
    (ha : desk.subscriptions.add request = (.ok isNew, subscriptions)) :
    desk.take isOpen request = ({ desk with subscriptions }.mark request).push
      (if isOpen && isNew then [.frame request.frame] else []) := by
  cases isNew <;> simp [take, admits, needsFrame, enter, hk, ha, Except.isOk, Except.toBool]

lemma take_of_error {fault : Fault} {subscriptions : Subscriptions}
    (hk : request.kind = .persistent)
    (ha : desk.subscriptions.add request = (.error fault, subscriptions)) :
    desk.take isOpen request = desk := by
  simp [take, admits, hk, ha, Except.isOk, Except.toBool]

def takeAll (isOpen : Bool) (desk : Desk) (requests : List Request) : Desk :=
  requests.foldl (take isOpen) desk

/-- Adds symbols to those whose books the connection answers for. -/
def feed (desk : Desk) (symbols : List String) : Desk :=
  { desk with
    bookSymbols := symbols.foldl (fun symbols symbol => insertNew symbol symbols) desk.bookSymbols }

/-- Releases a hash. The exchange is told of the records that are left without one. -/
def release (adapter : Adapter) (isOpen : Bool) (desk : Desk) (hash : String) : Desk :=
  let (removed, subscriptions) := desk.subscriptions.removeHash hash
  { desk with
    subscriptions
    privateHashes := desk.privateHashes.filter (· ≠ hash) }.push
    (if isOpen then (removed.filterMap adapter.unsubscribeFrame).map .frame else [])

end Desk

namespace Connection

variable {connection : Connection}

def desk (connection : Connection) : Desk :=
  ⟨connection.subscriptions, connection.privateHashes, connection.bookSymbols, connection.outbox⟩

lemma desk_markPrivate (connection : Connection) (request : Request) :
    (connection.markPrivate request).desk = connection.desk.mark request := by
  unfold markPrivate Desk.mark
  split <;> rfl

lemma desk_sendFor (connection : Connection) (waiter : Waiter) (frame : Json) :
    (connection.sendFor waiter frame).2.desk =
      connection.desk.push (if connection.isOpen then [.frame frame] else []) := by
  unfold sendFor send
  cases connection.isOpen with
  | true => rfl
  | false => exact (Desk.push_nil _).symm

lemma isOpen_markPrivate (connection : Connection) (request : Request) :
    (connection.markPrivate request).isOpen = connection.isOpen := by
  unfold isOpen
  rw [(connection.serves_markPrivate request).state]

lemma desk_enter (connection : Connection) (request : Request) :
    (connection.enter request).2.desk = connection.desk.mark request :=
  connection.desk_markPrivate request

lemma isOpen_enter (connection : Connection) (request : Request) :
    (connection.enter request).2.isOpen = connection.isOpen :=
  connection.isOpen_markPrivate request

lemma desk_ask (connection : Connection) (request : Request) :
    (connection.ask request).2.desk = (connection.desk.mark request).push
      (if connection.isOpen then [.frame request.frame] else []) := by
  rw [ask, desk_sendFor, isOpen_enter, desk_enter]

lemma desk_takeRequest (connection : Connection) (request : Request) :
    (connection.takeRequest request).2.desk =
      connection.desk.take connection.isOpen request := by
  have htaking := connection.taking request
  generalize connection.takeRequest request = taken at htaking ⊢
  cases htaking with
  | sent hk => rw [Desk.take_of_oneShot hk, desk_ask]
  | refused hk ha =>
    have hadd : connection.desk.subscriptions.add request = _ := ha
    rw [Desk.take_of_error hk hadd]
  | joined hk ha =>
    have hadd : connection.desk.subscriptions.add request = _ := ha
    rw [Desk.take_of_ok hk hadd, Bool.and_false, if_neg (by simp), Desk.push_nil]
    exact desk_enter ..
  | added hk ha =>
    have hadd : connection.desk.subscriptions.add request = _ := ha
    rw [Desk.take_of_ok hk hadd, Bool.and_true]
    exact desk_ask ..

lemma desk_resend (connection : Connection) (records : List SubscriptionRecord) :
    (connection.resend records).desk =
      connection.desk.push (SubscriptionRecord.frames records) := by
  unfold resend SubscriptionRecord.frames
  induction records generalizing connection with
  | nil => exact (Desk.push_nil _).symm
  | cons record rest ih =>
    rw [List.foldl_cons, ih]
    exact connection.desk.push_push [.frame record.request] _

/-- On an open connection nothing keeps the exchange from being told. -/
lemma desk_cancel (adapter : Adapter) (h : connection.isOpen = true)
    (records : List SubscriptionRecord) :
    (connection.cancel adapter records).2.desk =
      connection.desk.push ((records.filterMap adapter.unsubscribeFrame).map .frame) := by
  induction records generalizing connection with
  | nil => exact (Desk.push_nil _).symm
  | cons record rest ih =>
    unfold cancel
    rw [List.filterMap_cons]
    cases adapter.unsubscribeFrame record with
    | none => exact ih h
    | some frame =>
      have hsent : connection.send frame = (.ok (), connection.enqueue frame) := if_pos h
      have hrest : ((connection.enqueue frame).cancel adapter rest).2.desk =
          (connection.desk.push [.frame frame]).push
            ((rest.filterMap adapter.unsubscribeFrame).map .frame) := ih h
      dsimp only
      rw [hsent]
      exact hrest.trans (Desk.push_push ..)

lemma desk_unsubscribe (adapter : Adapter) (connection : Connection) (hash : String) :
    (connection.unsubscribe adapter hash).2.desk =
      connection.desk.release adapter connection.isOpen hash := by
  let freed := { connection with
    subscriptions := (connection.subscriptions.removeHash hash).2
    registry := (connection.registry.unsubscribe hash).2
    privateHashes := connection.privateHashes.filter (· ≠ hash) }
  have hsame : freed.isOpen = connection.isOpen := rfl
  unfold unsubscribe Desk.release
  dsimp only
  split
  · rename_i hopen
    have hopen : freed.isOpen = true := hopen
    rw [if_pos (hsame ▸ hopen)]
    exact desk_cancel adapter hopen _
  · rename_i hclosed
    have hclosed : ¬freed.isOpen = true := hclosed
    rw [if_neg (hsame ▸ hclosed)]
    exact (Desk.push_nil _).symm

lemma desk_settleAll (connection : Connection) (deliveries : List (String × Delivery Update)) :
    (connection.settleAll deliveries).desk = connection.desk := by
  unfold settleAll
  induction deliveries generalizing connection with
  | nil => rfl
  | cons delivery rest ih => exact ih (connection.settle delivery.1 delivery.2).2

end Connection

namespace Desk

/-- The desk after some requests and records that are sent again. -/
def serve (isOpen : Bool) (desk : Desk) (requests : List Request)
    (records : List SubscriptionRecord) : Desk :=
  (desk.takeAll isOpen requests).push (SubscriptionRecord.frames records)

lemma bookSymbols_take (isOpen : Bool) (desk : Desk) (request : Request) :
    (desk.take isOpen request).bookSymbols = desk.bookSymbols := by
  unfold take enter mark push
  split
  · cases request.kind <;> dsimp only <;> split <;> rfl
  · rfl

lemma bookSymbols_serve (isOpen : Bool) (desk : Desk) (requests : List Request)
    (records : List SubscriptionRecord) :
    (desk.serve isOpen requests records).bookSymbols = desk.bookSymbols := by
  change (desk.takeAll isOpen requests).bookSymbols = desk.bookSymbols
  induction requests generalizing desk with
  | nil => rfl
  | cons request rest ih => exact (ih (desk.take isOpen request)).trans (bookSymbols_take ..)

lemma serve_nil (isOpen : Bool) (desk : Desk) : desk.serve isOpen [] [] = desk := push_nil _

end Desk

/-! The requests of a call that goes on, in the order of its parts. -/

namespace Purpose

def requests : Purpose → List Request
  | subscribe request => [request]
  | authenticate | restore _ => []

/-- The records that are sent again when a call has come this far. -/
def resends : Purpose → Progress → List SubscriptionRecord
  | restore records, .done (.ok _) => records
  | _, _ => []

lemma resends_blocked (purpose : Purpose) (call : Call) : purpose.resends (.blocked call) = [] := by
  cases purpose <;> rfl

lemma resends_error (purpose : Purpose) (fault : Fault) :
    purpose.resends (.done (.error fault)) = [] := by
  cases purpose <;> rfl

end Purpose

namespace Call

variable {adapter : Adapter} {connection : Connection}

def requestsEnding (call : Call) : Except Fault Unit → List Request
  | .ok () => call.purpose.requests
  | .error _ => []

def requestsJudging (login : Login) (call : Call) (waiter : Waiter) (connection : Connection) :
    List Request :=
  match connection.registry.take waiter with
  | (.delivery delivery, _) => call.requestsEnding (delivery.bind login.accept)
  | (.nothingYet, _) | (.over, _) => []

def requestsLoggingIn (adapter : Adapter) (call : Call) (connection : Connection) :
    List Request :=
  match connection.ready?, adapter.login with
  | some (.ok ()), none => call.purpose.requests
  | some (.ok ()), some login =>
    login.request ::
      match connection.takeRequest login.request with
      | (.ok waiter, connection) => call.requestsJudging login waiter connection
      | (.error _, _) => []
  | some (.error _), _ | none, _ => []

def requestsInTurn (adapter : Adapter) (call : Call) (connection : Connection) : List Request :=
  if connection.authenticated then call.purpose.requests
  else if (call.joinQueue connection).loginQueue.head? = some call.number then
    call.requestsLoggingIn adapter (call.joinQueue connection)
  else []

/-- The requests that a call hands to its connection when it goes on. -/
def requests (adapter : Adapter) (call : Call) (connection : Connection) : List Request :=
  match call.stage with
  | .awaitingOpen =>
    match connection.ready? with
    | some (.ok ()) =>
      if call.purpose.needsLogin then call.requestsInTurn adapter connection
      else call.purpose.requests
    | some (.error _) | none => []
  | .awaitingTurn => call.requestsInTurn adapter connection
  | .holdingTurn => call.requestsLoggingIn adapter connection
  | .loggingIn waiter =>
    match adapter.login with
    | some login => call.requestsJudging login waiter connection
    | none => call.purpose.requests

lemma serve_of_blocked (isOpen : Bool) (desk : Desk) (call other : Call) :
    desk = desk.serve isOpen [] (call.purpose.resends (.blocked other)) := by
  rw [Purpose.resends_blocked, Desk.serve_nil]

lemma serve_of_error (isOpen : Bool) (desk : Desk) (call : Call) (fault : Fault) :
    desk = desk.serve isOpen [] (call.purpose.resends (.done (.error fault))) := by
  rw [Purpose.resends_error, Desk.serve_nil]

lemma desk_complete (call : Call) (connection : Connection) :
    (call.complete connection).2.desk = connection.desk.serve connection.isOpen
      call.purpose.requests (call.purpose.resends (call.complete connection).1) := by
  unfold complete
  cases call.purpose with
  | subscribe request => exact (connection.desk_takeRequest request).trans (Desk.push_nil _).symm
  | authenticate => exact (Desk.push_nil _).symm
  | restore records => exact connection.desk_resend records

lemma desk_endTurn (call : Call) (connection : Connection) (result : Except Fault Unit) :
    (call.endTurn connection result).2.desk = connection.desk.serve connection.isOpen
      (call.requestsEnding result) (call.purpose.resends (call.endTurn connection result).1) := by
  unfold endTurn
  cases result with
  | ok => exact call.desk_complete { call.leaveQueue connection with authenticated := true }
  | error fault => exact call.serve_of_error ..

lemma desk_judge (login : Login) (call : Call) (waiter : Waiter) (connection : Connection) :
    (call.judge login waiter connection).2.desk = connection.desk.serve connection.isOpen
      (call.requestsJudging login waiter connection)
      (call.purpose.resends (call.judge login waiter connection).1) := by
  unfold judge requestsJudging
  cases connection.registry.take waiter with
  | mk arrival taken =>
    cases arrival with
    | nothingYet => exact call.serve_of_blocked ..
    | delivery delivery =>
      exact call.desk_endTurn { connection with registry := connection.registry.discard taken }
        (delivery.bind login.accept)
    | _ => -- the channel has ended
      exact call.desk_endTurn connection (.error (Registry.noLongerRegistered taken))

lemma desk_logIn (adapter : Adapter) (call : Call) (connection : Connection) :
    (call.logIn adapter connection).2.desk = connection.desk.serve connection.isOpen
      (call.requestsLoggingIn adapter connection)
      (call.purpose.resends (call.logIn adapter connection).1) := by
  unfold logIn requestsLoggingIn
  cases connection.ready? with
  | none => exact call.serve_of_blocked ..
  | some ready =>
    cases ready with
    | error fault => exact call.desk_endTurn connection (.error fault)
    | ok =>
      cases adapter.login with
      | none => exact call.desk_endTurn connection (.ok ())
      | some login =>
        have hdesk := connection.desk_takeRequest login.request
        have hopen : (connection.takeRequest login.request).2.isOpen = connection.isOpen := by
          rw [Connection.isOpen, (connection.serves_takeRequest login.request).state,
            Connection.isOpen]
        dsimp only
        cases hr : connection.takeRequest login.request with
        | mk result taken =>
          rw [hr] at hdesk hopen
          dsimp only at hdesk hopen
          cases result with
          | error fault =>
            have hended := call.desk_endTurn taken (.error fault)
            rw [hdesk, hopen] at hended
            exact hended
          | ok waiter =>
            have hjudged := call.desk_judge login waiter taken
            rw [hdesk, hopen] at hjudged
            exact hjudged

lemma desk_takeTurn (adapter : Adapter) (call : Call) (connection : Connection) :
    (call.takeTurn adapter connection).2.desk = connection.desk.serve connection.isOpen
      (call.requestsInTurn adapter connection)
      (call.purpose.resends (call.takeTurn adapter connection).1) := by
  have hdesk : (call.joinQueue connection).desk = connection.desk := by
    unfold joinQueue
    split <;> rfl
  have hopen : (call.joinQueue connection).isOpen = connection.isOpen := by
    rw [Connection.isOpen, (call.serves_joinQueue connection).state, Connection.isOpen]
  unfold takeTurn requestsInTurn
  split
  · exact call.desk_complete (call.leaveQueue connection)
  · dsimp only
    split
    · rw [call.desk_logIn adapter, hdesk, hopen]
    · exact hdesk.trans (call.serve_of_blocked ..)

lemma desk_advance (adapter : Adapter) (call : Call) (connection : Connection) :
    (call.advance adapter connection).2.desk = connection.desk.serve connection.isOpen
      (call.requests adapter connection)
      (call.purpose.resends (call.advance adapter connection).1) := by
  unfold advance requests
  cases call.stage with
  | awaitingTurn => exact call.desk_takeTurn adapter connection
  | holdingTurn => exact call.desk_logIn adapter connection
  | loggingIn waiter =>
    dsimp only
    cases adapter.login with
    | none => exact call.desk_endTurn connection (.ok ())
    | some login => exact call.desk_judge login waiter connection
  | awaitingOpen =>
    dsimp only
    cases connection.ready? with
    | none => exact call.serve_of_blocked ..
    | some ready =>
      cases ready with
      | error fault => exact call.serve_of_error ..
      | ok =>
        dsimp only
        split
        · exact call.desk_takeTurn adapter connection
        · exact call.desk_complete connection

end Call

/-! What comes in concerns no request. -/

namespace Circuit

lemma desk_conclude (circuit : Circuit) (dispatch : Dispatch) (result : Except Stop Unit) :
    (circuit.conclude dispatch result).2.connection.desk =
      circuit.connection.desk.feed (dispatch.fed result) := by
  unfold conclude
  cases result with
  | ok => exact Connection.desk_settleAll ..
  | error stop =>
    cases stop with
    | overflow overflow => rfl
    | fault fault =>
      dsimp only
      split
      · rfl
      · exact Connection.desk_settleAll ..

lemma desk_applyFrameError (circuit : Circuit) (error : FrameError) :
    (circuit.applyFrameError error).2.connection.desk = circuit.connection.desk := by
  unfold applyFrameError
  cases error.scope with
  | hashes hashes => exact Connection.desk_settleAll ..
  | privateChannels => exact Connection.desk_settleAll ..
  | connection => rfl

lemma desk_dispatch (adapter : Adapter) (circuit : Circuit) (now : Int) (frame : Json) :
    (circuit.dispatch adapter now frame).2.connection.desk =
      circuit.connection.desk.feed (circuit.fedBy adapter frame) := by
  unfold dispatch
  split
  · rename_i hpong
    rw [fedBy_of_none (handled_of_pong hpong)]
    rfl
  · rename_i hpong
    cases hclass : adapter.classify frame with
    | some error =>
      rw [fedBy_of_none (handled_of_error hclass)]
      exact circuit.desk_applyFrameError error
    | none =>
      rw [fedBy, handled_of_kind (by simpa using hpong) hclass]
      dsimp only
      cases (adapter.streamKind frame).bind adapter.handlers.get? with
      | none => rfl
      | some handler => exact circuit.desk_conclude _ _

lemma desk_beginTeardown (circuit : Circuit) (fault : Fault) :
    (circuit.beginTeardown fault).2.connection.desk = circuit.connection.desk := by
  unfold beginTeardown
  split <;> rfl

/-- A socket that opens for the first time has the public records sent again. -/
lemma desk_opened (circuit : Circuit) (now : Int) :
    (circuit.opened now).2.connection.desk = circuit.connection.desk.push
      (SubscriptionRecord.frames (if circuit.connection.everOpened then []
        else circuit.connection.replay.filter (!·.isPrivate))) := by
  cases ho : circuit.connection.everOpened with
  | true =>
    rw [opened_of_everOpened _ _ ho, if_pos rfl]
    exact (Desk.push_nil _).symm
  | false =>
    unfold opened
    rw [if_neg (by simp [ho]), if_neg (by simp), List.partition_eq_filter_filter]
    dsimp only
    generalize hresent : Connection.resend _ _ = resent
    have hdesk : resent.desk = circuit.connection.desk.push (SubscriptionRecord.frames
        (circuit.connection.replay.filter (!·.isPrivate))) :=
      hresent ▸ Connection.desk_resend _ _
    split
    · exact hdesk
    · dsimp only
      split <;> exact hdesk

end Circuit

namespace Station

variable {adapter : Adapter} {station : Station} {step : Step}

def desk (station : Station) : Desk := station.connection.desk

def requests (adapter : Adapter) (station : Station) : Step → List Request
  | .advance index =>
    match station.calls[index]? with
    | some (.blocked call) => call.requests adapter station.connection
    | _ => []
  | _ => []

/-- What a step queues that concerns no record. -/
def queued (adapter : Adapter) (station : Station) : Step → List Outgoing
  | .send frame => if station.connection.isOpen then [.frame frame] else []
  | .close => if station.connection.isOpen then [.close] else []
  | .probe _ => [adapter.pingFrame.elim .ping .frame]
  | _ => []

/-- The symbols whose books the connection answers for after a step. -/
def symbolsAfter (adapter : Adapter) (station : Station) : Step → List String
  | .finish => if station.connection.state = .closing then [] else station.desk.bookSymbols
  | step => (station.desk.feed (station.fed adapter step)).bookSymbols

def deskAfter (adapter : Adapter) (station : Station) : Step → Desk
  | .unsubscribe hash => station.desk.release adapter station.connection.isOpen hash
  | step => { (station.desk.serve station.connection.isOpen (station.requests adapter step)
      (station.resent adapter step)).push (station.queued adapter step) with
    bookSymbols := station.symbolsAfter adapter step }

lemma Step.eq_unsubscribe_or (step : Step) :
    (∃ hash, step = .unsubscribe hash) ∨ ∀ hash, step ≠ .unsubscribe hash :=
  or_iff_not_imp_left.mpr not_exists.mp

lemma desk_work (adapter : Adapter) (station : Station) (step : Step) :
    (station.after adapter step).desk = (station.work adapter step).2.desk := by
  unfold after
  cases hw : station.work adapter step with
  | mk fault worked =>
    cases fault with
    | none => rfl
    | some fault => exact worked.circuit.desk_beginTeardown fault

lemma deskAfter_eq (hs : ∀ hash, step ≠ .unsubscribe hash) :
    station.deskAfter adapter step =
      { (station.desk.serve station.connection.isOpen (station.requests adapter step)
          (station.resent adapter step)).push (station.queued adapter step) with
        bookSymbols := station.symbolsAfter adapter step } := by
  unfold deskAfter
  split
  · rename_i hash
    exact absurd rfl (hs hash)
  · rfl

lemma deskAfter_of_silent (hr : station.requests adapter step = [])
    (hp : station.resent adapter step = []) (hs : ∀ hash, step ≠ .unsubscribe hash) :
    station.deskAfter adapter step = { station.desk.push (station.queued adapter step) with
      bookSymbols := station.symbolsAfter adapter step } := by
  rw [deskAfter_eq hs, hr, hp, Desk.serve_nil]

lemma desk_receive (adapter : Adapter) (station : Station) (now : Int) (size : Nat)
    (frame : Option Json) : (station.receive adapter now size frame).2.desk =
      station.desk.feed ((frame.map (station.circuit.fedBy adapter)).getD []) := by
  cases frame with
  | none => rfl
  | some frame => exact (station.circuit.countReceived now size).desk_dispatch adapter now frame

/-! Most steps leave the requests alone, and queue nothing either. -/

lemma desk_after_of_quiet (hr : station.requests adapter step = [])
    (hp : station.resent adapter step = []) (hs : ∀ hash, step ≠ .unsubscribe hash)
    (hn : station.queued adapter step = [])
    (hdesk : (station.work adapter step).2.desk =
      { station.desk with bookSymbols := station.symbolsAfter adapter step }) :
    (station.after adapter step).desk = station.deskAfter adapter step := by
  rw [desk_work, deskAfter_of_silent hr hp hs, hn, Desk.push_nil, hdesk]

lemma desk_after_send (adapter : Adapter) (station : Station) (frame : Json) :
    (station.after adapter (.send frame)).desk = station.deskAfter adapter (.send frame) := by
  rw [deskAfter_of_silent rfl rfl (by simp)]
  change (station.connection.send frame).2.desk = _
  unfold Connection.send queued
  cases station.connection.isOpen with
  | true => rfl
  | false => exact (Desk.push_nil _).symm

lemma desk_after_close (adapter : Adapter) (station : Station) :
    (station.after adapter .close).desk = station.deskAfter adapter .close := by
  rw [desk_work, deskAfter_of_silent rfl rfl (by simp)]
  change station.circuit.sayClose.2.connection.desk = _
  unfold Circuit.sayClose queued
  change Connection.desk (if station.connection.isOpen then _ else _ : Circuit).connection = _
  cases station.connection.isOpen with
  | true => rfl
  | false => exact (Desk.push_nil _).symm

/-- A call that goes on is served what it asks for. -/
lemma desk_after_advance (adapter : Adapter) (station : Station) (index : Nat) :
    (station.after adapter (.advance index)).desk =
      station.deskAfter adapter (.advance index) := by
  cases hcall : station.calls[index]? with
  | none =>
    exact desk_after_of_quiet (by rw [requests, hcall]) (by rw [resent, hcall]) (by simp) rfl
      (by rw [work, hcall]; rfl)
  | some progress =>
    cases progress with
    | done result =>
      exact desk_after_of_quiet (by rw [requests, hcall]) (by rw [resent, hcall]) (by simp) rfl
        (by rw [work, hcall]; rfl)
    | blocked call =>
      let served := station.desk.serve station.connection.isOpen
        (call.requests adapter station.connection)
        (call.purpose.resends (call.advance adapter station.connection).1)
      have hdesk : (call.advance adapter station.connection).2.desk = served :=
        call.desk_advance adapter station.connection
      have hbooks : served.bookSymbols = station.desk.bookSymbols := Desk.bookSymbols_serve ..
      have hserved : { served.push [] with bookSymbols := station.desk.bookSymbols } = served := by
        rw [Desk.push_nil, ← hbooks]
      rw [deskAfter_eq (by simp), after_advance hcall, resent_advance adapter hcall, requests,
        hcall]
      exact hdesk.trans hserved.symm

lemma desk_after (adapter : Adapter) (station : Station) (step : Step) :
    (station.after adapter step).desk = station.deskAfter adapter step := by
  cases step with
  | advance index => exact station.desk_after_advance adapter index
  | opened now =>
    rw [desk_work]
    exact (station.circuit.desk_opened now).trans (Desk.push_nil _).symm
  | unsubscribe hash => exact station.connection.desk_unsubscribe adapter hash
  | send frame => exact station.desk_after_send adapter frame
  | close => exact station.desk_after_close adapter
  | probe now =>
    rw [deskAfter_of_silent rfl rfl (by simp)]
    rfl
  | finish =>
    refine desk_after_of_quiet rfl rfl (by simp) rfl ?_
    rw [work, symbolsAfter]
    dsimp only
    split <;> rfl
  | dial delayed =>
    refine desk_after_of_quiet rfl rfl (by simp) rfl ?_
    rw [work, Circuit.dial]
    dsimp only
    split <;> rfl
  | text now message =>
    refine desk_after_of_quiet rfl rfl (by simp) rfl ?_
    rw [work_text]
    exact station.desk_receive adapter now _ _
  | bytes now message =>
    refine desk_after_of_quiet rfl rfl (by simp) rfl ?_
    obtain ⟨size, hwork⟩ := work_bytes adapter station now message
    rw [hwork]
    exact station.desk_receive adapter now size _
  | ping | fail | silence | begin | settle | drop | feed =>
    exact desk_after_of_quiet rfl rfl (by simp) rfl rfl

end Station

end MarketFeed
