import MarketFeed.Client.Basic
import MarketFeed.Connection.Call
import MarketFeed.Registry.Handle
import MarketFeed.Session.Network

/-!
A client at work: its connections dial endpoints by their names, its calls wait for them, and its
callers hold waiters. Time is a count of milliseconds that passes only while something is waited
for, so that a session runs the same way every time.
-/

namespace MarketFeed

/-- How far a connection has come with dialing. -/
inductive DialStage where
  /-- To begin at a time. -/
  | waiting (start : Nat)
  /-- No answer yet; given up at a time. -/
  | dialing (deadline : Nat)
  | over
deriving DecidableEq, Repr

/-- What has reached the other end of a connection. -/
inductive Heard where
  | frame (frame : Json)
  | closed

/-- The two ends of a connection: `carried` counts what has been taken from the queue of the socket,
and `heard` is what the other end has not reported yet. -/
structure Line where
  dial : DialStage
  accepted : Bool
  nextBeat : Option Nat
  carried : Nat
  heard : List Heard
  probed : Bool

def Line.new (start : Nat) : Line := ⟨.waiting start, false, none, 0, [], false⟩

/-- What a task gives to its caller. -/
inductive TaskKind where
  | waiter
  /-- A waiter that is a stream. -/
  | stream
  /-- The first delivery to the waiter. -/
  | update
  /-- Nothing but the success. -/
  | success
deriving DecidableEq, Repr

inductive TaskState where
  | calling (call : Call)
  | receiving (waiter : Waiter)
  | granted (waiter : Waiter)
  | received (update : Update)
  | succeeded
  | failed (fault : Fault)
  | reported

structure Task where
  connection : Nat
  kind : TaskKind
  state : TaskState

/-- What a caller is told about a task. -/
inductive TaskReport where
  | running
  | handle (index : Nat)
  | update (update : Update)
  | success
  | failed (fault : Fault)
  | reported

/-- What the other end of a connection can do. -/
inductive PeerAction where
  | text (text : String)
  | bytes (bytes : List UInt8)
  | ping
  | close (code : Option Nat) (reason : String)
  | vanish

/-- `restores` are the calls that send private records again; `reported` counts the events that have
been asked for. -/
structure Session where
  client : Client
  network : Network
  endpoints : Table String EndpointMode
  lines : List Line
  tasks : List Task
  restores : List (Nat × Call)
  handles : List (Nat × Handle)
  nextCall : Nat
  reported : Nat
  now : Nat

namespace Session

def new (client : Client) (network : Network) (endpoints : Table String EndpointMode) : Session :=
  ⟨client, network, endpoints, [], [], [], [], 0, 0, 0⟩

/-- The longest time in milliseconds that a step waits for sockets to open. -/
def settleLimit : Nat := 1025

/-- The longest time in milliseconds that a connection is waited for to close. -/
def closeLimit : Nat := 15000

/-- The random share of every delay: the middle. -/
def draw : Float := 0.5

/-- The part of an address before the name of an endpoint. -/
def scheme : String := "ws://"

/-- The address of an endpoint; a name that is none stands for itself. -/
def address (session : Session) (name : String) : String :=
  if session.endpoints.contains name then scheme ++ name else name

/-- The name of an endpoint; an address that is none stands for itself. -/
def nameOf (session : Session) (url : String) : String :=
  (session.endpoints.keys.find? fun name => scheme ++ name == url).getD url

def modeOf (session : Session) (url : String) : Option EndpointMode :=
  session.endpoints.get? (session.nameOf url)

def clock (session : Session) : Int := session.now

def changeLine (session : Session) (number : Nat) (change : Line → Line) : Session :=
  { session with lines := session.lines.modify number change }

/-- Changes a connection and what it shares with others. -/
def onCircuit {α : Type} (session : Session) (number : Nat) (change : Circuit → α × Circuit) :
    Option α × Session :=
  let (result, client) := session.client.onCircuit number change
  (result, { session with client })

def onConnection {α : Type} (session : Session) (number : Nat)
    (change : Connection → α × Connection) : Option α × Session :=
  session.onCircuit number fun circuit => circuit.onConnection change

def teardown (session : Session) (number : Nat) (fault : Fault) : Session :=
  (session.onCircuit number fun circuit => circuit.teardown fault).2

/-- A call for the given purpose, with a number of its own. -/
def newCall (session : Session) (purpose : Purpose) : Call × Session :=
  (.begin session.nextCall purpose, { session with nextCall := session.nextCall + 1 })

/-- The endpoint has accepted: the socket is open. -/
def accept (session : Session) (number : Nat) : Session :=
  let (records, session) := session.onCircuit number (·.opened session.clock)
  let heartbeat := session.client.settings.heartbeat
  let session := session.changeLine number ({ · with
    dial := .over
    accepted := true
    nextBeat := if heartbeat.isEnabled then some (session.now + heartbeat.interval) else none })
  match records.getD [] with
  | [] => session
  | records =>
    let (call, session) := session.newCall (.restore records)
    { session with restores := session.restores ++ [(number, call)] }

/-- Dials the endpoint of a connection. -/
def dial (session : Session) (number : Nat) (connection : Connection) : Session :=
  let (_, session) := session.onCircuit number fun circuit => ((), circuit.dial true)
  match session.network.dial (session.modeOf connection.url) with
  | .accepted => session.accept number
  | .failed fault => (session.teardown number fault).changeLine number ({ · with dial := .over })
  | .silence =>
    session.changeLine number ({ · with
      dial := .dialing (session.now + connection.settings.connectTimeout) })

/-- One beat of the heartbeat of an open connection. -/
def beat (session : Session) (number : Nat) (connection : Connection) : Session :=
  let (_, session) := session.onCircuit number fun circuit =>
    ((), circuit.beat session.client.adapter session.clock)
  session.changeLine number ({ · with
    nextBeat := some (session.now + connection.settings.heartbeat.interval) })

/-- Does what is due on a line. -/
def runLine (session : Session) (number : Nat) : Session :=
  match session.client.connection? number, session.lines[number]? with
  | some connection, some line =>
    if connection.closeFault.isSome then
      session.changeLine number ({ · with dial := .over, nextBeat := none })
    else
      match line.dial with
      | .waiting start => if start ≤ session.now then session.dial number connection else session
      | .dialing deadline =>
        if deadline ≤ session.now then session.teardown number (.transport .connectTimeout)
        else session
      | .over =>
        if line.nextBeat.any (· ≤ session.now) then session.beat number connection else session
  | _, _ => session

/-- What the other end makes of something that was sent. Probes are not reported. -/
def hear (pingFrame : Option Json) (line : Line) (outgoing : Outgoing) : Line :=
  let line := { line with carried := line.carried + 1 }
  match outgoing with
  | .ping => { line with probed := true }
  | .close => { line with heard := line.heard ++ [.closed] }
  | .frame frame =>
    if pingFrame.any (· == frame) then { line with probed := true }
    else { line with heard := line.heard ++ [.frame frame] }

/-- Carries what has been sent to the other end. -/
def carry (session : Session) (number : Nat) : Session :=
  match session.client.connection? number, session.lines[number]? with
  | some connection, some line =>
    if line.accepted then
      session.changeLine number fun line =>
        (connection.outbox.drop line.carried).foldl (hear session.client.adapter.pingFrame) line
    else session
  | _, _ => session

/-- The state of a task whose call has come to an end. -/
def stateOf (kind : TaskKind) : Except Fault (Option Waiter) → TaskState
  | .error fault => .failed fault
  | .ok none => .succeeded
  | .ok (some waiter) => if kind = .update then .receiving waiter else .granted waiter

/-- Looks for the delivery that a task waits for; its waiter is given up with it. -/
def receive (waiter : Waiter) (connection : Connection) : TaskState × Connection :=
  match connection.registry.take waiter with
  | (.nothingYet, waiter) => (.receiving waiter, connection)
  | (.over, waiter) => (.failed (Registry.noLongerRegistered waiter), connection)
  | (.delivery delivery, waiter) =>
    (match delivery with
      | .ok update => .received update
      | .error fault => .failed fault,
      { connection with registry := connection.registry.discard waiter })

/-- Takes a task one step further. -/
def stepTask (adapter : Adapter) (task : Task) (connection : Connection) : TaskState × Connection :=
  match task.state with
  | .calling call =>
    match call.advance adapter connection with
    | (.blocked call, connection) => (.calling call, connection)
    | (.done result, connection) => (stateOf task.kind result, connection)
  | .receiving waiter => receive waiter connection
  | state => (state, connection)

def runTask (session : Session) (index : Nat) : Session :=
  match session.tasks[index]? with
  | none => session
  | some task =>
    let (state, session) :=
      session.onConnection task.connection (stepTask session.client.adapter task)
    { session with
      tasks := session.tasks.set index { task with state := state.getD task.state } }

/-- Takes the calls that send private records again one step further. -/
def runRestores (session : Session) : Session :=
  session.restores.foldl (fun session (number, call) =>
    match session.onConnection number (call.advance session.client.adapter) with
    | (some (.blocked call), session) =>
      { session with restores := session.restores ++ [(number, call)] }
    | (_, session) => session) { session with restores := [] }

/-- Does everything once that can be done now. -/
def runOnce (session : Session) : Session :=
  let session := (List.range session.lines.length).foldl runLine session
  let session := ((List.range session.tasks.length).foldl runTask session).runRestores
  (List.range session.lines.length).foldl carry session

/-- Does everything that can be done now. A call that ends lets the next one in, so that as many
rounds as there are calls are enough. -/
def run (session : Session) : Session :=
  Nat.repeat runOnce (session.tasks.length + session.restores.length + 3) session

/-- The times at which something is due on a line. -/
def Line.wakes (line : Line) : List Nat :=
  (match line.dial with
    | .waiting start => [start]
    | .dialing deadline => [deadline]
    | .over => []) ++ line.nextBeat.toList

/-- The next time at which something is due. -/
def nextWake? (session : Session) : Option Nat :=
  ((session.lines.flatMap Line.wakes).filter (session.now < ·)).min?

/-- Lets time pass until `stop` holds, at most up to the deadline. Every step takes a millisecond at
least, so that `fuel` above the time up to the deadline is enough. -/
def waitFor (stop : Session → Bool) (deadline : Nat) : (fuel : Nat) → Session → Session
  | 0, session => session
  | fuel + 1, session =>
    if stop session then session
    else
      match session.nextWake?.filter (· ≤ deadline) with
      | some wake => waitFor stop deadline fuel { session with now := wake }.run
      | none => { session with now := max session.now deadline }

/-- Lets at most `limit` milliseconds pass until `stop` holds. -/
def waitWithin (session : Session) (stop : Session → Bool) (limit : Nat) : Session :=
  waitFor stop (session.now + limit) (limit + 1) session.run

/-- Whether a socket is being opened to an endpoint that will answer. -/
def isDialing (session : Session) : Bool :=
  session.client.connections.any fun connection =>
    connection.state = .connecting && session.modeOf connection.url != some .hangs

/-- Lets everything that is under way come to an end, as far as it does within the limit. -/
def settle (session : Session) : Session := session.waitWithin (!·.isDialing) settleLimit

def sleep (session : Session) (millis : Nat) : Session :=
  session.waitWithin (fun _ => false) millis

def stateOfConnection (session : Session) (number : Nat) : Lifecycle :=
  ((session.client.connection? number).map (·.state)).getD .closed

/-- The live connection for an endpoint. -/
def get (session : Session) (name : String) : Except Fault Grant × Session :=
  match session.client.get draw (session.address name) with
  | (.error fault, client) => (.error fault, { session with client })
  | (.ok grant, client) =>
    (.ok grant,
      match grant.delay with
      | none => { session with client }
      | some delay =>
        { session with client, lines := session.lines ++ [.new (session.now + delay)] })

/-- Asks for the live connection of an endpoint; with `wait` its socket is waited for. The result is
the state of the connection and whether it was there before. -/
def connect (session : Session) (name : String) (wait : Bool) :
    Except Fault (Lifecycle × Bool) × Session :=
  match session.get name with
  | (.error fault, session) => (.error fault, session)
  | (.ok grant, session) =>
    let session :=
      if wait then
        (session.waitWithin (·.stateOfConnection grant.number ≠ .connecting) settleLimit).settle
      else session
    (.ok (session.stateOfConnection grant.number, grant.delay.isNone), session.run)

/-- The connection that stands for an endpoint. -/
def current? (session : Session) (name : String) : Option Connection :=
  (session.client.number? (session.address name)).bind session.client.connection?

/-- What there is to tell about a task. A task is told about once when it has ended. -/
def report (session : Session) (index : Nat) : Option TaskReport × Session :=
  match session.tasks[index]? with
  | none => (none, session)
  | some task =>
    let ended := { session with
      tasks := session.tasks.set index { task with state := .reported } }
    match task.state with
    | .calling _ | .receiving _ => (some .running, session)
    | .granted waiter =>
      let handle := if task.kind = .stream then Handle.streaming waiter else .idle waiter
      (some (.handle session.handles.length),
        { ended with handles := session.handles ++ [(task.connection, handle)] })
    | .received update => (some (.update update), ended)
    | .succeeded => (some .success, ended)
    | .failed fault => (some (.failed fault), ended)
    | .reported => (some .reported, session)

/-- Tells about a task after everything under way has come to an end. -/
def join (session : Session) (index : Nat) : Option TaskReport × Session :=
  session.settle.report index

/-- Starts a task; the result is its number. -/
def start (session : Session) (task : Task) : Nat × Session :=
  (session.tasks.length, { session with tasks := session.tasks ++ [task] })

/-- Starts a task that makes a request on the live connection of an endpoint. -/
def request (session : Session) (name : String) (kind : TaskKind) (request : Request) :
    Nat × Session :=
  match session.get name with
  | (.error fault, session) => session.start ⟨0, kind, .failed fault⟩
  | (.ok grant, session) =>
    let (call, session) := session.newCall (.subscribe request)
    session.start ⟨grant.number, kind, .calling call⟩

/-- Starts a task that logs in on the connection of an endpoint, if there is one. -/
def authenticate (session : Session) (name : String) : Option Nat × Session :=
  match session.client.number? (session.address name) with
  | none => (none, session)
  | some number =>
    let (call, session) := session.newCall .authenticate
    let (index, session) := session.start ⟨number, .success, .calling call⟩
    (some index, session)

/-- Does something with a waiter that a caller holds. -/
def onHandle (session : Session) (index : Nat)
    (use : Registry Update → Handle → Reply Update × Handle × Registry Update) :
    Option (Reply Update) × Session :=
  match session.handles[index]? with
  | none => (none, session)
  | some (number, handle) =>
    match session.onConnection number fun connection =>
      let (reply, handle, registry) := use connection.registry handle
      ((reply, handle), { connection with registry }) with
    | (none, session) => (none, session)
    | (some (reply, handle), session) =>
      (some reply, { session with handles := session.handles.set index (number, handle) })

/-- The last connection that an endpoint has accepted. -/
def accepted? (session : Session) (name : String) : Option Nat :=
  (List.range session.lines.length).reverse.find? fun number =>
    (session.lines[number]?).any (·.accepted) &&
      (session.client.connection? number).any (·.url == session.address name)

/-- What the other end of a connection does to it. -/
def act (adapter : Adapter) (now : Int) (circuit : Circuit) (action : PeerAction) : Circuit :=
  if !circuit.connection.isOpen || circuit.connection.isDeaf then circuit
  else
    match action with
    | .text text => circuit.receiveText adapter now text
    | .bytes bytes => circuit.receiveBytes adapter now bytes
    | .ping => circuit.countReceived now 0
    | .close code reason => (circuit.teardown (.transport (.closedByPeer code reason))).2
    | .vanish => (circuit.teardown SocketFault.reset.toFault).2

/-- Lets the last peer that an endpoint has accepted act; `false` if there is none. -/
def actAsPeer (session : Session) (name : String) (actions : List PeerAction) : Bool × Session :=
  match session.accepted? name with
  | none => (false, session)
  | some number =>
    let (_, session) := session.onCircuit number fun circuit =>
      ((), actions.foldl (act session.client.adapter session.clock) circuit)
    (true, session.settle)

/-- What the last peer that an endpoint has accepted has heard since it was asked before. -/
def heard (session : Session) (name : String) : List Heard × Session :=
  match session.accepted? name with
  | none => ([], session)
  | some number =>
    (((session.lines[number]?).map (·.heard)).getD [],
      session.changeLine number ({ · with heard := [] }))

/-- Whether the last peer that an endpoint has accepted was ever probed. -/
def wasProbed (session : Session) (name : String) : Bool :=
  ((session.accepted? name).bind fun number => session.lines[number]?).any (·.probed)

/-- The events since the last call. -/
def newEvents (session : Session) : List ConnectionEvent × Session :=
  (session.client.events.drop session.reported,
    { session with reported := session.client.events.length })

/-- Performs an operation of the client. -/
def onClient {α : Type} (session : Session) (operation : Client → α × Client) : α × Session :=
  let (result, client) := operation session.client
  (result, { session with client })

/-- Waits until the connection of an endpoint is closed. -/
def awaitClosed (session : Session) (name : String) : Session :=
  match session.client.number? (session.address name) with
  | none => session
  | some number =>
    session.waitWithin (·.stateOfConnection number = .closed) closeLimit

def setMode (session : Session) (name : String) (mode : EndpointMode) : Session :=
  { session with endpoints := session.endpoints.insert name mode }

end Session

end MarketFeed
