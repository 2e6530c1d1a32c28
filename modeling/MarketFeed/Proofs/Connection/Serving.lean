import MarketFeed.Connection.Call
import MarketFeed.Proofs.Registry.Ending
import MarketFeed.Proofs.Subscriptions.Records

/-!
# What serving a connection leaves alone

Whatever callers do on a connection, its life is no business of theirs: neither the state nor the
fault that it was closed with changes. The registry changes by uninterrupted calls on it.
-/

namespace MarketFeed

/-- What opening and closing a connection are about. -/
structure Life where
  url : String
  state : Lifecycle
  closeFault : Option Fault

namespace Connection

def life (connection : Connection) : Life :=
  ⟨connection.url, connection.state, connection.closeFault⟩

/-- One connection becomes the other without a change of its life. Of the waiters that there were
before these ones only are dropped, and waiters are registered on these hashes only. -/
structure Serves (before : Connection) (drops : List Waiter) (joins : List String)
    (after : Connection) : Prop where
  life : after.life = before.life
  registry : before.registry.Leads drops joins after.registry

variable {connection middle after : Connection} {drops others : List Waiter}
  {joins names : List String} {adapter : Adapter}

lemma Serves.state (h : connection.Serves drops joins after) : after.state = connection.state :=
  congrArg Life.state h.life

lemma Serves.of_eq (hl : after.life = connection.life) (hr : after.registry = connection.registry) :
    connection.Serves [] [] after := by
  refine ⟨hl, ?_⟩
  rw [hr]
  exact .refl _

lemma Serves.refl (connection : Connection) : connection.Serves [] [] connection := .of_eq rfl rfl

lemma Serves.trans (h : connection.Serves drops joins middle)
    (h' : middle.Serves others names after) :
    connection.Serves (drops ++ others) (joins ++ names) after :=
  ⟨h'.life.trans h.life, h.registry.trans h'.registry⟩

lemma Serves.mono (h : connection.Serves drops joins after) (hd : ∀ waiter ∈ drops, waiter ∈ others)
    (hj : ∀ hash ∈ joins, hash ∈ names) : connection.Serves others names after :=
  ⟨h.life, h.registry.mono hd hj⟩

lemma Serves.of_none (h : connection.Serves [] [] after) : connection.Serves drops joins after :=
  h.mono (fun _ hm => absurd hm List.not_mem_nil) fun _ hm => absurd hm List.not_mem_nil

lemma Serves.of_new (h : connection.Serves drops joins after)
    (hn : ∀ waiter ∈ drops, connection.registry.IsNew waiter) : connection.Serves [] joins after :=
  ⟨h.life, h.registry.of_new hn⟩

/-! What a connection does at once. -/

lemma serves_resend (connection : Connection) (records : List SubscriptionRecord) :
    connection.Serves [] [] (connection.resend records) := by
  unfold resend
  induction records generalizing connection with
  | nil => exact .refl connection
  | cons record rest ih =>
    have hsent : connection.Serves [] [] (connection.enqueue record.request) := .of_eq rfl rfl
    exact hsent.trans (ih (connection.enqueue record.request))

lemma serves_send (connection : Connection) (frame : Json) :
    connection.Serves [] [] (connection.send frame).2 := by
  unfold send
  split
  · exact .of_eq rfl rfl
  · exact .refl connection

lemma serves_markPrivate (connection : Connection) (request : Request) :
    connection.Serves [] [] (connection.markPrivate request) := by
  unfold markPrivate
  split
  · exact .of_eq rfl rfl
  · exact .refl connection

lemma serves_register (connection : Connection) (request : Request) :
    connection.Serves [] [request.messageHash] (connection.register request).2 :=
  ⟨rfl, Registry.leads_register ..⟩

lemma serves_discard (connection : Connection) (waiter : Waiter) :
    connection.Serves [waiter] []
      { connection with registry := connection.registry.discard waiter } :=
  ⟨rfl, Registry.leads_discard ..⟩

/-- A waiter that has taken its delivery may be given up. -/
lemma serves_discard_taken {waiter taken : Waiter} {delivery : Delivery Update}
    (h : connection.registry.take waiter = (.delivery delivery, taken)) :
    connection.Serves [] [] { connection with registry := connection.registry.discard taken } := by
  apply (connection.serves_discard taken).of_new
  intro other hm
  obtain rfl : other = taken := by simpa using hm
  exact Registry.isNew_of_take h

lemma serves_sendFor (connection : Connection) (waiter : Waiter) (frame : Json) :
    connection.Serves [waiter] [] (connection.sendFor waiter frame).2 := by
  have hsend := connection.serves_send frame
  unfold sendFor
  cases hs : connection.send frame with
  | mk result sent =>
    rw [hs] at hsend
    cases result with
    | ok => exact hsend.of_none
    | error fault => exact hsend.trans (sent.serves_discard waiter)

/-- A waiter that is registered and given up at once was not there before. -/
lemma serves_register_sendFor (connection : Connection) (request : Request) :
    connection.Serves [] [request.messageHash] ((connection.register request).2.sendFor
      (connection.register request).1 request.frame).2 := by
  have hboth := (connection.serves_register request).trans
    ((connection.register request).2.serves_sendFor (connection.register request).1 request.frame)
  apply hboth.of_new
  intro waiter hm
  obtain rfl : waiter = (connection.register request).1 := by simpa using hm
  exact Registry.isNew_register _ _ _

/-- A request is entered: its hash is marked if it is private, and its waiter is registered. -/
def enter (connection : Connection) (request : Request) : Waiter × Connection :=
  (connection.markPrivate request).register request

/-- A request is entered, and its frame is sent. -/
def ask (connection : Connection) (request : Request) : Except Fault Waiter × Connection :=
  (connection.enter request).2.sendFor (connection.enter request).1 request.frame

/-- All that can come of a request. -/
inductive Taking (connection : Connection) (request : Request) :
    Except Fault Waiter × Connection → Prop
  | sent (hk : request.kind = .oneShot) : Taking connection request (connection.ask request)
  | refused (hk : request.kind = .persistent)
      (ha : connection.subscriptions.add request =
        (.error connection.subscriptions.full, connection.subscriptions))
      (hn : request.key ∉ connection.subscriptions.records.keys)
      (hf : connection.subscriptions.capacity ≤ connection.subscriptions.count) :
      Taking connection request (.error connection.subscriptions.full, connection)
  | joined {front back : List (String × SubscriptionRecord)} {record : SubscriptionRecord}
      {subscriptions : Subscriptions} (hk : request.kind = .persistent)
      (ha : connection.subscriptions.add request = (.ok false, subscriptions))
      (he : connection.subscriptions.records.entries = front ++ (request.key, record) :: back)
      (hs : subscriptions = connection.subscriptions.joinAt front request.key record back
        request.messageHash) :
      Taking connection request (.ok ({ connection with subscriptions }.enter request).1,
        ({ connection with subscriptions }.enter request).2)
  | added {subscriptions : Subscriptions} (hk : request.kind = .persistent)
      (ha : connection.subscriptions.add request = (.ok true, subscriptions))
      (hn : request.key ∉ connection.subscriptions.records.keys)
      (hf : connection.subscriptions.count < connection.subscriptions.capacity)
      (hs : subscriptions = connection.subscriptions.extend request) :
      Taking connection request ({ connection with subscriptions }.ask request)

lemma taking (connection : Connection) (request : Request) :
    connection.Taking request (connection.takeRequest request) := by
  unfold takeRequest
  cases hk : request.kind with
  | oneShot => exact .sent hk
  | persistent =>
    have hadmission := connection.subscriptions.admission request
    unfold Subscriptions.add at hadmission
    dsimp only
    cases ht : connection.subscriptions.tryAdd request.messageHash request.frame
      request.subscriptionKey request.isPrivate with
    | mk result subscriptions =>
      have ha : connection.subscriptions.add request = (result, subscriptions) := ht
      rw [ht] at hadmission
      dsimp only at hadmission ⊢
      cases hadmission with
      | refused hn hf => exact .refused hk ha hn hf
      | joined he => exact .joined hk ha he rfl
      | added hn hf => exact .added hk ha hn hf rfl

lemma serves_enter (connection : Connection) (request : Request) :
    connection.Serves [] [request.messageHash] (connection.enter request).2 :=
  (connection.serves_markPrivate request).trans (serves_register ..)

lemma serves_ask (connection : Connection) (request : Request) :
    connection.Serves [] [request.messageHash] (connection.ask request).2 :=
  (connection.serves_markPrivate request).trans (serves_register_sendFor ..)

lemma serves_takeRequest (connection : Connection) (request : Request) :
    connection.Serves [] [request.messageHash] (connection.takeRequest request).2 := by
  have hrecorded : ∀ subscriptions, connection.Serves [] [] { connection with subscriptions } :=
    fun _ => .of_eq rfl rfl
  have htaking := connection.taking request
  generalize connection.takeRequest request = taken at htaking ⊢
  cases htaking with
  | sent => exact connection.serves_ask request
  | refused => exact (Serves.refl connection).of_none
  | joined => exact (hrecorded _).trans (serves_enter ..)
  | added => exact (hrecorded _).trans (serves_ask ..)

lemma serves_cancel (adapter : Adapter) (connection : Connection)
    (records : List SubscriptionRecord) :
    connection.Serves [] [] (connection.cancel adapter records).2 := by
  induction records generalizing connection with
  | nil => exact .refl connection
  | cons record rest ih =>
    unfold cancel
    cases adapter.unsubscribeFrame record with
    | none => exact ih connection
    | some frame =>
      have hsend := connection.serves_send frame
      dsimp only
      cases hs : connection.send frame with
      | mk result sent =>
        rw [hs] at hsend
        cases result with
        | ok => exact hsend.trans (ih sent)
        | error fault => exact hsend

lemma serves_unsubscribe (adapter : Adapter) (connection : Connection) (hash : String) :
    connection.Serves [] [] (connection.unsubscribe adapter hash).2 := by
  have hfreed : connection.Serves [] []
      { connection with
        subscriptions := (connection.subscriptions.removeHash hash).2
        registry := (connection.registry.unsubscribe hash).2
        privateHashes := connection.privateHashes.filter (· ≠ hash) } :=
    ⟨rfl, Registry.leads_unsubscribe ..⟩
  unfold unsubscribe
  dsimp only
  split
  · exact hfreed.trans (serves_cancel adapter _ _)
  · exact hfreed

lemma serves_settle (connection : Connection) (hash : String) (delivery : Delivery Update) :
    connection.Serves [] [] (connection.settle hash delivery).2 :=
  ⟨rfl, Registry.leads_settle ..⟩

lemma serves_settleAll (connection : Connection) (deliveries : List (String × Delivery Update)) :
    connection.Serves [] [] (connection.settleAll deliveries) := by
  unfold settleAll
  induction deliveries generalizing connection with
  | nil => exact .refl connection
  | cons delivery rest ih =>
    exact (connection.serves_settle delivery.1 delivery.2).trans (ih _)

end Connection

/-! What a call does when it goes on. -/

/-- The hashes that a call registers on when it does what it is for. -/
def Purpose.joins : Purpose → List String
  | subscribe request => [request.messageHash]
  | authenticate | restore _ => []

namespace Call

variable {adapter : Adapter}

/-- The hashes that a call may register on: that of the login and that of its request. -/
def joins (adapter : Adapter) (call : Call) : List String :=
  (adapter.login.map (·.request.messageHash)).toList ++ call.purpose.joins

/-- What ends with what the call is for is among what the call may do. -/
lemma serves_of_purpose {call : Call} {connection after : Connection}
    (h : connection.Serves [] call.purpose.joins after) :
    connection.Serves [] (call.joins adapter) after :=
  h.mono (fun _ hm => hm) fun _ hm => List.mem_append_right _ hm

lemma serves_complete (call : Call) (connection : Connection) :
    connection.Serves [] call.purpose.joins (call.complete connection).2 := by
  unfold complete
  cases call.purpose with
  | subscribe request => exact connection.serves_takeRequest request
  | authenticate => exact .refl connection
  | restore records => exact connection.serves_resend records

lemma serves_joinQueue (call : Call) (connection : Connection) :
    connection.Serves [] [] (call.joinQueue connection) := by
  unfold joinQueue
  split
  · exact .refl connection
  · exact .of_eq rfl rfl

lemma serves_leaveQueue (call : Call) (connection : Connection) :
    connection.Serves [] [] (call.leaveQueue connection) := .of_eq rfl rfl

lemma serves_endTurn (call : Call) (connection : Connection) (result : Except Fault Unit) :
    connection.Serves [] call.purpose.joins (call.endTurn connection result).2 := by
  have hleft := call.serves_leaveQueue connection
  unfold endTurn
  cases result with
  | error fault => exact hleft.of_none
  | ok =>
    have hauthenticated : (call.leaveQueue connection).Serves [] []
        { call.leaveQueue connection with authenticated := true } := .of_eq rfl rfl
    exact hleft.trans (hauthenticated.trans (call.serves_complete _))

lemma serves_judge (login : Login) (call : Call) (waiter : Waiter) (connection : Connection) :
    connection.Serves [] call.purpose.joins (call.judge login waiter connection).2 := by
  unfold judge
  cases ht : connection.registry.take waiter with
  | mk arrival taken =>
    cases arrival with
    | nothingYet => exact (Connection.Serves.refl connection).of_none
    | delivery delivery =>
      exact (Connection.serves_discard_taken ht).trans (call.serves_endTurn _ _)
    | _ => exact call.serves_endTurn connection _

lemma serves_logIn (adapter : Adapter) (call : Call) (connection : Connection) :
    connection.Serves [] (call.joins adapter) (call.logIn adapter connection).2 := by
  unfold logIn joins
  cases connection.ready? with
  | none => exact (Connection.Serves.refl connection).of_none
  | some ready =>
    cases ready with
    | error fault => exact serves_of_purpose (call.serves_endTurn connection _)
    | ok =>
      cases adapter.login with
      | none => exact call.serves_endTurn connection _
      | some login =>
        have hasked := connection.serves_takeRequest login.request
        dsimp only
        cases hr : connection.takeRequest login.request with
        | mk result taken =>
          rw [hr] at hasked
          cases result with
          | error fault => exact hasked.trans (call.serves_endTurn taken _)
          | ok waiter => exact hasked.trans (call.serves_judge login waiter taken)

lemma serves_takeTurn (adapter : Adapter) (call : Call) (connection : Connection) :
    connection.Serves [] (call.joins adapter) (call.takeTurn adapter connection).2 := by
  have hjoined := call.serves_joinQueue connection
  unfold takeTurn
  split
  · exact serves_of_purpose ((call.serves_leaveQueue connection).trans (call.serves_complete _))
  · dsimp only
    split
    · exact hjoined.trans (call.serves_logIn adapter _)
    · exact hjoined.of_none

lemma serves_advance (adapter : Adapter) (call : Call) (connection : Connection) :
    connection.Serves [] (call.joins adapter) (call.advance adapter connection).2 := by
  unfold advance
  cases call.stage with
  | awaitingOpen =>
    dsimp only
    cases connection.ready? with
    | none => exact (Connection.Serves.refl connection).of_none
    | some ready =>
      cases ready with
      | error fault => exact (Connection.Serves.refl connection).of_none
      | ok =>
        dsimp only
        split
        · exact call.serves_takeTurn adapter connection
        · exact serves_of_purpose (call.serves_complete connection)
  | awaitingTurn => exact call.serves_takeTurn adapter connection
  | holdingTurn => exact call.serves_logIn adapter connection
  | loggingIn waiter =>
    dsimp only
    cases adapter.login with
    | some login => exact serves_of_purpose (call.serves_judge login waiter connection)
    | none => exact serves_of_purpose (call.serves_endTurn connection _)

end Call

/-- Whether an event tells that a connection has opened or closed. -/
def ConnectionEvent.isMilestone : ConnectionEvent → Bool
  | connected _ | resubscribed _ _ | closed _ _ => true
  | _ => false

lemma ConnectionEvent.isClosed_of_not_milestone {event : ConnectionEvent}
    (h : event.isMilestone = false) : event.isClosed = false := by
  cases event with
  | closed => exact h
  | _ => rfl

/-! What happens to a connection together with its store and its events. -/

namespace Circuit

/-- One circuit becomes the other without a change of the life of its connection. -/
structure Serves (before : Circuit) (drops : List Waiter) (joins : List String)
    (after : Circuit) : Prop where
  connection : before.connection.Serves drops joins after.connection
  events : ∃ more, after.events = before.events ++ more ∧
    ∀ event ∈ more, event.isMilestone = false

variable {circuit middle after : Circuit} {drops others : List Waiter} {joins names : List String}
  {adapter : Adapter}

lemma Serves.of_connection (h : circuit.connection.Serves drops joins after.connection)
    (he : after.events = circuit.events) : circuit.Serves drops joins after :=
  ⟨h, [], he.trans (List.append_nil _).symm, fun _ hm => absurd hm List.not_mem_nil⟩

lemma Serves.of_eq (hl : after.connection.life = circuit.connection.life)
    (hr : after.connection.registry = circuit.connection.registry)
    (he : after.events = circuit.events) : circuit.Serves [] [] after :=
  .of_connection (.of_eq hl hr) he

lemma Serves.refl (circuit : Circuit) : circuit.Serves [] [] circuit := .of_eq rfl rfl rfl

lemma Serves.trans (h : circuit.Serves drops joins middle) (h' : middle.Serves others names after) :
    circuit.Serves (drops ++ others) (joins ++ names) after := by
  obtain ⟨hconnection, first, hfirst, hquiet⟩ := h
  obtain ⟨hconnection', second, hsecond, hquiet'⟩ := h'
  refine ⟨hconnection.trans hconnection', first ++ second, ?_, fun event hm => ?_⟩
  · rw [hsecond, hfirst, List.append_assoc]
  · exact (List.mem_append.mp hm).elim (hquiet event) (hquiet' event)

lemma serves_emit (circuit : Circuit) {event : ConnectionEvent} (h : event.isMilestone = false) :
    circuit.Serves [] [] (circuit.emit event) := by
  refine ⟨.refl _, [event], rfl, fun other hm => ?_⟩
  rw [List.mem_singleton.mp hm]
  exact h

lemma serves_dial (circuit : Circuit) (delayed : Bool) :
    circuit.Serves [] [] (circuit.dial delayed) := by
  unfold dial
  split
  · exact .refl circuit
  · exact circuit.serves_emit rfl

lemma serves_conclude (circuit : Circuit) (dispatch : Dispatch) (result : Except Stop Unit) :
    circuit.Serves [] [] (circuit.conclude dispatch result).2 := by
  have hfed : circuit.connection.Serves [] []
      { circuit.connection with
        bookSymbols := dispatch.books.foldl (fun symbols symbol => insertNew symbol symbols)
          circuit.connection.bookSymbols } := .of_eq rfl rfl
  unfold conclude
  cases result with
  | ok => exact .of_connection (hfed.trans (Connection.serves_settleAll ..)) rfl
  | error stop =>
    cases stop with
    | overflow overflow => exact .of_eq rfl rfl rfl
    | fault fault =>
      dsimp only
      split
      · exact .of_connection hfed rfl
      · exact .of_connection (hfed.trans (Connection.serves_settleAll ..)) rfl

lemma serves_applyFrameError (circuit : Circuit) (error : FrameError) :
    circuit.Serves [] [] (circuit.applyFrameError error).2 := by
  unfold applyFrameError
  cases error.scope with
  | hashes hashes => exact .of_connection (Connection.serves_settleAll ..) rfl
  | privateChannels => exact .of_connection (Connection.serves_settleAll ..) rfl
  | connection => exact .refl circuit

lemma serves_dispatch (adapter : Adapter) (circuit : Circuit) (now : Int) (frame : Json) :
    circuit.Serves [] [] (circuit.dispatch adapter now frame).2 := by
  unfold dispatch
  split
  · exact .of_eq rfl rfl rfl
  · cases adapter.classify frame with
    | some error => exact circuit.serves_applyFrameError error
    | none =>
      dsimp only
      cases (adapter.streamKind frame).bind adapter.handlers.get? with
      | none => exact .refl circuit
      | some handler => exact circuit.serves_conclude _ _

lemma serves_takeText (adapter : Adapter) (circuit : Circuit) (now : Int) (text : String) :
    circuit.Serves [] [] (circuit.takeText adapter now text).2 := by
  unfold takeText
  dsimp only
  cases Json.parse text with
  | ok frame =>
    have hcounted : circuit.Serves [] [] (circuit.countReceived now text.utf8ByteSize) :=
      .of_eq rfl rfl rfl
    exact hcounted.trans (serves_dispatch adapter _ now frame)
  | error fault => exact .of_eq rfl rfl rfl

lemma serves_takeBytes (adapter : Adapter) (circuit : Circuit) (now : Int) (bytes : List UInt8) :
    circuit.Serves [] [] (circuit.takeBytes adapter now bytes).2 := by
  unfold takeBytes
  cases String.fromUTF8? ⟨bytes.toArray⟩ with
  | some text => exact serves_takeText adapter circuit now text
  | none => exact .of_eq rfl rfl rfl

lemma serves_sayClose (circuit : Circuit) : circuit.Serves [] [] circuit.sayClose.2 := by
  unfold sayClose
  dsimp only
  split
  · exact .of_eq rfl rfl rfl
  · exact .refl circuit

/-- A socket that has opened changes the life of a connection only if nobody has closed it. -/
lemma opened_cases (circuit : Circuit) (now : Int) : circuit.Serves [] [] (circuit.opened now).2 ∨
    circuit.connection.state = .connecting ∧
    (circuit.opened now).2.connection.life = { circuit.connection.life with state := .opened } ∧
    circuit.connection.registry.Leads [] [] (circuit.opened now).2.connection.registry ∧
    ∃ more, (circuit.opened now).2.events = circuit.events ++ more ∧
      ∀ event ∈ more, event.isClosed = false := by
  unfold opened
  dsimp only
  split
  · exact .inl (.refl circuit)
  · generalize circuit.connection.replay.partition (·.isPrivate) = parts
    obtain ⟨privateRecords, publicRecords⟩ := parts
    dsimp only
    have hready : circuit.connection.Serves [] []
        { circuit.connection with
          stats := circuit.connection.stats.recordConnected now
          everOpened := true
          replay := [] } := .of_eq rfl rfl
    have hresent := hready.trans (Connection.serves_resend _ publicRecords)
    generalize Connection.resend _ publicRecords = resent at hresent ⊢
    have hstate : resent.state = circuit.connection.state := congrArg Life.state hresent.life
    split
    · exact .inl (.of_connection hresent rfl)
    · rename_i hconnecting
      have hconnecting : resent.state = .connecting := by simpa using hconnecting
      have hlife : ({ resent with state := .opened } : Connection).life =
          { circuit.connection.life with state := .opened } := by
        rw [← hresent.life]
        rfl
      refine .inr ⟨hstate ▸ hconnecting, ?_⟩
      split
      · refine ⟨hlife, hresent.registry, _, List.append_assoc .., ?_⟩
        simp [ConnectionEvent.isClosed]
      · refine ⟨hlife, hresent.registry, _, rfl, ?_⟩
        simp [ConnectionEvent.isClosed]

end Circuit

end MarketFeed
