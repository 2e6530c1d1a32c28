import MarketFeed.Connection.Adapter
import MarketFeed.Connection.Event
import MarketFeed.Connection.Lifecycle
import MarketFeed.Json.Printer
import MarketFeed.Settings.Connection

/-!
One connection to one address, which all subscriptions made on it share. Each operation is one
atomic step; between two steps other callers may act. A connection never opens a second time, and
the fault that it was closed with stays with it for good.
-/

namespace MarketFeed

/-- What is queued for the socket. -/
inductive Outgoing where
  | frame (frame : Json)
  | ping
  | close

/-- `replay` holds the records of an earlier connection until the socket opens; `loginQueue` are the
calls that wait to log in, of which the first one may; a deaf connection takes no more frames. -/
structure Connection where
  url : String
  settings : ConnectionSettings
  state : Lifecycle
  everOpened : Bool
  isDeaf : Bool
  authenticated : Bool
  loginQueue : List Nat
  registry : Registry Update
  subscriptions : Subscriptions
  privateHashes : List String
  bookSymbols : List String
  stats : Stats
  outbox : List Outgoing
  replay : List SubscriptionRecord
  closeFault : Option Fault

/-- Adds an item to a list that holds each item once. -/
def insertNew (item : String) (items : List String) : List String :=
  if items.contains item then items else items ++ [item]

namespace Connection

/-- A connection that has yet to open. It carries over the given records. -/
def new (url : String) (settings : ConnectionSettings) (records : List SubscriptionRecord) :
    Connection where
  url := url
  settings := settings
  state := .connecting
  everOpened := false
  isDeaf := false
  authenticated := false
  loginQueue := []
  registry := .empty
  subscriptions := (Subscriptions.new settings.maxSubscriptions).restore records
  privateHashes :=
    (records.filter (·.isPrivate)).foldl (fun hashes record =>
      record.hashes.foldl (fun hashes hash => insertNew hash hashes) hashes) []
  bookSymbols := []
  stats := .zero
  outbox := []
  replay := records
  closeFault := none

def isOpen (connection : Connection) : Bool := connection.state = .opened

/-- Queues something for the socket. -/
def push (connection : Connection) (outgoing : Outgoing) : Connection :=
  { connection with outbox := connection.outbox ++ [outgoing] }

def enqueue (connection : Connection) (frame : Json) : Connection := connection.push (.frame frame)

/-- Queues the requests of records once more. -/
def resend (connection : Connection) (records : List SubscriptionRecord) : Connection :=
  records.foldl (fun connection record => connection.enqueue record.request) connection

/-- Sends a frame, if the socket is open. -/
def send (connection : Connection) (frame : Json) : Except Fault Unit × Connection :=
  if connection.isOpen then (.ok (), connection.enqueue frame)
  else (.error (.transport .notConnected), connection)

/-- The fault that a caller of a closed connection is told. -/
def closeReason (connection : Connection) : Fault :=
  connection.closeFault.getD (.connectionClosed "connection closed")

/-- Whether the socket is open: `none` while that is undecided, and the reason when it is closed. -/
def ready? (connection : Connection) : Option (Except Fault Unit) :=
  match connection.state with
  | .connecting => none
  | .opened => some (.ok ())
  | .closing | .closed => some (.error connection.closeReason)

/-- Marks the hash of a private request. -/
def markPrivate (connection : Connection) (request : Request) : Connection :=
  if request.isPrivate then
    { connection with privateHashes := insertNew request.messageHash connection.privateHashes }
  else connection

def register (connection : Connection) (request : Request) : Waiter × Connection :=
  let (waiter, registry) := connection.registry.register request.messageHash request.kind
  (waiter, { connection with registry })

/-- Sends the frame of a request whose waiter is registered. A waiter whose frame cannot be sent is
given up. -/
def sendFor (connection : Connection) (waiter : Waiter) (frame : Json) :
    Except Fault Waiter × Connection :=
  match connection.send frame with
  | (.ok (), connection) => (.ok waiter, connection)
  | (.error fault, connection) =>
    (.error fault, { connection with registry := connection.registry.discard waiter })

/-- Takes a request, once the socket is open and the caller may make it. A subscription is recorded,
and sent if its key is new; a request that is answered once is always sent. -/
def takeRequest (connection : Connection) (request : Request) : Except Fault Waiter × Connection :=
  match request.kind with
  | .oneShot =>
    let (waiter, connection) := (connection.markPrivate request).register request
    connection.sendFor waiter request.frame
  | .persistent =>
    match connection.subscriptions.tryAdd request.messageHash request.frame
        request.subscriptionKey request.isPrivate with
    | (.error fault, subscriptions) => (.error fault, { connection with subscriptions })
    | (.ok isNew, subscriptions) =>
      let (waiter, connection) :=
        ({ connection with subscriptions }.markPrivate request).register request
      if isNew then connection.sendFor waiter request.frame else (.ok waiter, connection)

/-- Tells the exchange that subscriptions have ended, as far as it can be told. -/
def cancel (adapter : Adapter) (connection : Connection) :
    List SubscriptionRecord → Except Fault Unit × Connection
  | [] => (.ok (), connection)
  | record :: rest =>
    match adapter.unsubscribeFrame record with
    | none => cancel adapter connection rest
    | some frame =>
      match connection.send frame with
      | (.ok (), connection) => cancel adapter connection rest
      | (.error fault, connection) => (.error fault, connection)

/-- Ends the waiting on a hash and takes it out of its subscription. The exchange is told when no
other hash shares the subscription. The result says whether there was anything to end. -/
def unsubscribe (adapter : Adapter) (connection : Connection) (hash : String) :
    Except Fault Bool × Connection :=
  let recorded := connection.subscriptions.containsHash hash
  let (removed, subscriptions) := connection.subscriptions.removeHash hash
  let (hadWaiter, registry) := connection.registry.unsubscribe hash
  let connection :=
    { connection with
      subscriptions, registry
      privateHashes := connection.privateHashes.filter (· ≠ hash) }
  if connection.isOpen then
    let (result, connection) := connection.cancel adapter removed
    (result.map fun () => recorded || hadWaiter, connection)
  else (.ok (recorded || hadWaiter), connection)

def settle (connection : Connection) (hash : String) (delivery : Delivery Update) :
    Nat × Connection :=
  let (count, registry) := connection.registry.settle hash delivery
  (count, { connection with registry })

def settleAll (connection : Connection) (deliveries : List (String × Delivery Update)) :
    Connection :=
  deliveries.foldl (fun connection (hash, delivery) => (connection.settle hash delivery).2)
    connection

end Connection

/-- A connection together with what it shares with others: the store that its frames feed, and the
events so far. -/
structure Circuit where
  connection : Connection
  store : FeedStore
  events : List ConnectionEvent

namespace Circuit

def emit (circuit : Circuit) (event : ConnectionEvent) : Circuit :=
  { circuit with events := circuit.events ++ [event] }

/-- Changes the connection alone. -/
def onConnection {α : Type} (circuit : Circuit) (change : Connection → α × Connection) :
    α × Circuit :=
  let (result, connection) := change circuit.connection
  (result, { circuit with connection })

/-- Begins to dial. A connection that has to wait before does not, if it is closed by then. -/
def dial (circuit : Circuit) (delayed : Bool) : Circuit :=
  if delayed && circuit.connection.closeFault.isSome then circuit
  else circuit.emit (.connecting circuit.connection.url)

/-- The socket is open. The public records of an earlier connection are sent again before anything
else; the private ones are the result, and have to wait for the login. -/
def opened (circuit : Circuit) (now : Int) : List SubscriptionRecord × Circuit :=
  let connection := circuit.connection
  if connection.everOpened then ([], circuit)
  else
    let (privateRecords, publicRecords) := connection.replay.partition (·.isPrivate)
    let connection :=
      { connection with
        stats := connection.stats.recordConnected now
        everOpened := true
        replay := [] }.resend publicRecords
    if connection.state ≠ .connecting then ([], { circuit with connection })
    else
      let replayed := publicRecords.length + privateRecords.length
      let circuit :=
        { circuit with connection := { connection with state := .opened } }.emit
          (.connected connection.url)
      (privateRecords,
        if 0 < replayed then circuit.emit (.resubscribed connection.url replayed) else circuit)

/-- Gives up the books of the given symbols. -/
def invalidateBooks (books : BookStore) (symbols : List String) : BookStore :=
  symbols.foldl (fun books symbol => (books.invalidate symbol).2) books

/-- Begins to close: from here on the fault is fixed and no caller is let in. -/
def beginClosing (circuit : Circuit) (fault : Fault) : Circuit :=
  { circuit with
    connection := { circuit.connection with closeFault := some fault, state := .closing } }

/-- Gives up the books that the connection has fed and tells all waiters the fault. -/
def finishClosing (circuit : Circuit) (fault : Fault) : Circuit :=
  let connection := circuit.connection
  { circuit with
    connection :=
      { connection with
        bookSymbols := []
        registry := (connection.registry.rejectAll fault).2
        state := .closed }
    store :=
      { circuit.store with
        books := invalidateBooks circuit.store.books connection.bookSymbols } }.emit
    (.closed connection.url fault.message)

/-- The first half of closing the connection. Only the first call has an effect; the result says
whether this one has. -/
def beginTeardown (circuit : Circuit) (fault : Fault) : Bool × Circuit :=
  if circuit.connection.closeFault.isSome then (false, circuit)
  else (true, circuit.beginClosing fault)

/-- Closes the connection with a fault, which all its waiters are told, unless it has been closed
before. The result says whether it has not. -/
def teardown (circuit : Circuit) (fault : Fault) : Bool × Circuit :=
  match circuit.beginTeardown fault with
  | (true, circuit) => (true, circuit.finishClosing fault)
  | (false, circuit) => (false, circuit)

/-- Closes the connection with the fault that an operation has come to, if it has come to one. -/
def closeFor : Option Fault × Circuit → Circuit
  | (some fault, circuit) => (circuit.teardown fault).2
  | (none, circuit) => circuit

/-- The deliveries of a handler that failed: its own rejections, and one with its fault for every
other hash that it declared to be affected. -/
def deliveriesOfFailure (dispatch : Dispatch) (fault : Fault) : List (String × Delivery Update) :=
  let rejections := dispatch.deliveries.filter fun (_, delivery) => delivery matches .error _
  let rejected := rejections.map (·.1)
  rejections ++
    (dispatch.affected.filter (!rejected.contains ·)).map fun hash => (hash, .error fault)

/-- Gives out what a handler has queued. The fault of a handler that failed goes to the hashes that
it declared, or is one to close the connection with. -/
def conclude (circuit : Circuit) (dispatch : Dispatch) (result : Except Stop Unit) :
    Option Fault × Circuit :=
  let circuit := { circuit with store := dispatch.store }
  let fed :=
    { circuit.connection with
      bookSymbols := dispatch.books.foldl (fun symbols symbol => insertNew symbol symbols)
        circuit.connection.bookSymbols }
  match result with
  | .error (.overflow _) =>
    (none, { circuit with connection := { circuit.connection with isDeaf := true } })
  | .ok () => (none, { circuit with connection := fed.settleAll dispatch.deliveries })
  | .error (.fault fault) =>
    if fault.isConnectionFatal then (some fault, { circuit with connection := fed })
    else (none, { circuit with connection := fed.settleAll (deliveriesOfFailure dispatch fault) })

/-- Tells the waiters that an error frame concerns, unless it concerns the connection. -/
def applyFrameError (circuit : Circuit) (error : FrameError) : Option Fault × Circuit :=
  let reject := fun (hashes : List String) =>
    let deliveries := hashes.map fun hash => (hash, .error error.fault)
    (none, { circuit with connection := circuit.connection.settleAll deliveries })
  match error.scope with
  | .hashes hashes => reject hashes
  | .privateChannels => reject circuit.connection.privateHashes
  | .connection => (some error.fault, circuit)

/-- Takes a frame: a sign of life, an error, or something for the handler of its kind. -/
def dispatch (adapter : Adapter) (circuit : Circuit) (now : Int) (frame : Json) :
    Option Fault × Circuit :=
  if adapter.isPong frame then
    (none, { circuit with
      connection := { circuit.connection with stats := circuit.connection.stats.recordPong now } })
  else
    match adapter.classify frame with
    | some error => circuit.applyFrameError error
    | none =>
      match (adapter.streamKind frame).bind adapter.handlers.get? with
      | none => (none, circuit)
      | some handler =>
        let start := Dispatch.new circuit.connection.url circuit.store
        let (result, dispatch) := StateT.run (ExceptT.run (handler frame)) start
        circuit.conclude dispatch result

/-- Counts a message of the given size. -/
def countReceived (circuit : Circuit) (now : Int) (bytes : Nat) : Circuit :=
  { circuit with
    connection :=
      { circuit.connection with
        stats := circuit.connection.stats.recordReceived (UInt64.ofNat bytes) now } }

def countParseFailure (circuit : Circuit) : Circuit :=
  { circuit with
    connection := { circuit.connection with stats := circuit.connection.stats.recordParseFailure } }

/-- Takes a message in text form. -/
def takeText (adapter : Adapter) (circuit : Circuit) (now : Int) (text : String) :
    Option Fault × Circuit :=
  let circuit := circuit.countReceived now text.utf8ByteSize
  match Json.parse text with
  | .ok frame => circuit.dispatch adapter now frame
  | .error _ => (none, circuit.countParseFailure)

/-- Takes a message in binary form, which has to be the bytes of a text. -/
def takeBytes (adapter : Adapter) (circuit : Circuit) (now : Int) (bytes : List UInt8) :
    Option Fault × Circuit :=
  match String.fromUTF8? ⟨bytes.toArray⟩ with
  | some text => circuit.takeText adapter now text
  | none => (none, (circuit.countReceived now bytes.length).countParseFailure)

/-- Tells the other end that the caller closes the connection. -/
def sayClose (circuit : Circuit) : Option Fault × Circuit :=
  (some (.connectionClosed "connection closed by caller"),
    if circuit.connection.isOpen then
      { circuit with connection := circuit.connection.push .close }
    else circuit)

/-- Reports that the connection has been silent for `elapsed` milliseconds. -/
def reportSilence (circuit : Circuit) (elapsed : Nat) : Option Fault × Circuit :=
  let window := circuit.connection.settings.heartbeat.window
  (some (.timeout ("no liveness response within " ++ toString window ++ "ms")),
    circuit.emit (.heartbeatTimeout circuit.connection.url (Duration.ofMillis elapsed)))

/-- Sends a sign of life. -/
def probe (adapter : Adapter) (circuit : Circuit) (now : Int) : Circuit :=
  { circuit with
    connection :=
      { circuit.connection with stats := circuit.connection.stats.recordPing now }.push
        (adapter.pingFrame.elim .ping .frame) }

def receiveText (adapter : Adapter) (circuit : Circuit) (now : Int) (text : String) : Circuit :=
  closeFor (circuit.takeText adapter now text)

def receiveBytes (adapter : Adapter) (circuit : Circuit) (now : Int) (bytes : List UInt8) :
    Circuit :=
  closeFor (circuit.takeBytes adapter now bytes)

/-- Closes the connection on behalf of its caller. -/
def close (circuit : Circuit) : Circuit := closeFor circuit.sayClose

/-- Gives up a connection that has been silent for `elapsed` milliseconds. -/
def heartbeatTimeout (circuit : Circuit) (elapsed : Nat) : Circuit :=
  closeFor (circuit.reportSilence elapsed)

/-- One beat of the heartbeat: the connection is given up if it was silent for too long, and probed
otherwise. -/
def beat (adapter : Adapter) (circuit : Circuit) (now : Int) : Circuit :=
  let connection := circuit.connection
  let heartbeat := connection.settings.heartbeat
  let lastSign :=
    if heartbeat.trafficCounts then max connection.stats.lastPong connection.stats.lastMessage
    else connection.stats.lastPong
  let elapsed := (now - lastSign).toNat
  if heartbeat.window ≤ elapsed then circuit.heartbeatTimeout elapsed
  else circuit.probe adapter now

end Circuit

end MarketFeed
