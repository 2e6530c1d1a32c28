import MarketFeed.Connection.Basic
import MarketFeed.Url

/-!
A client with at most one live connection to an address. A dead connection is replaced when the
address is asked for again. The replacement carries over the subscriptions, and waits before it
dials if the connections before it have never opened.
-/

namespace MarketFeed

/-- `connections` are all that were ever made, by number, and `current` the numbers of those that
stand for their addresses; `failures` counts the replaced connections that have never opened. The
count agrees with one of 32 bits up to `2 ^ 32 - 1` failures in a row. -/
structure Client where
  adapter : Adapter
  settings : ConnectionSettings
  store : FeedStore
  connections : List Connection
  current : Table String Nat
  failures : Table String Nat
  events : List ConnectionEvent

/-- The connection that stands for an address; a new one is to dial after `delay` milliseconds. -/
structure Grant where
  number : Nat
  delay : Option Nat
deriving DecidableEq, Repr

namespace Client

def new (adapter : Adapter) (settings : ConnectionSettings) (store : FeedStore) : Client :=
  ⟨adapter, settings, store, [], .empty, .empty, []⟩

def connection? (client : Client) (number : Nat) : Option Connection := client.connections[number]?

/-- The number of the connection that stands for an address. -/
def number? (client : Client) (url : String) : Option Nat := client.current.get? url

/-- Changes a connection and what it shares with others. -/
def onCircuit {α : Type} (client : Client) (number : Nat) (change : Circuit → α × Circuit) :
    Option α × Client :=
  match client.connection? number with
  | none => (none, client)
  | some connection =>
    let (result, circuit) := change ⟨connection, client.store, client.events⟩
    (some result,
      { client with
        connections := client.connections.set number circuit.connection
        store := circuit.store
        events := circuit.events })

/-- Changes a connection alone. -/
def onConnection {α : Type} (client : Client) (number : Nat)
    (change : Connection → α × Connection) : Option α × Client :=
  client.onCircuit number fun circuit => circuit.onConnection change

/-- Changes the connection that stands for an address, if there is one. -/
def onCurrent {α : Type} (client : Client) (url : String) (change : Connection → α × Connection) :
    Option α × Client :=
  match client.number? url with
  | none => (none, client)
  | some number => client.onConnection number change

/-- Makes a connection that stands for an address. -/
def spawn (client : Client) (url : String) (records : List SubscriptionRecord) : Nat × Client :=
  let number := client.connections.length
  (number,
    { client with
      connections := client.connections ++ [.new url client.settings records]
      current := client.current.insert url number })

/-- Replaces a dead connection. `draw`, a number from zero to one, is the random share of the
delay. The attempts are numbered without a bound; a number of 32 bits holds the first `2 ^ 32 - 1`
of them. -/
def replace (client : Client) (draw : Float) (url : String) (previous : Connection) :
    Grant × Client :=
  let records :=
    if client.settings.reconnect.resubscribe then previous.subscriptions.ordered else []
  if previous.everOpened then
    let (number, client) := { client with failures := client.failures.erase url }.spawn url records
    (⟨number, some 0⟩, client)
  else
    let attempt := (client.failures.get? url).getD 0 + 1
    let delay := client.settings.reconnect.backoff.delay draw (attempt - 1)
    let (number, client) :=
      { client with failures := client.failures.insert url attempt }.spawn url records
    (⟨number, some delay⟩,
      { client with
        events := client.events ++ [.backoff url attempt (Duration.ofMillis delay)] })

/-- Checks that an address is one of a stream. -/
def checkUrl (url : String) : Except Fault Unit :=
  match Url.scheme url with
  | .error flaw => .error (.transport (.invalidUrl (url ++ ": " ++ flaw.message)))
  | .ok scheme =>
    if scheme = "ws" ∨ scheme = "wss" then .ok ()
    else .error (.transport (.invalidUrl ("unsupported scheme '" ++ scheme ++ "' in " ++ url)))

/-- The live connection for an address; a new one if there is none. -/
def get (client : Client) (draw : Float) (url : String) : Except Fault Grant × Client :=
  match checkUrl url with
  | .error fault => (.error fault, client)
  | .ok () =>
    match (client.number? url).bind fun number =>
      (client.connection? number).map ((number, ·)) with
    | none =>
      let (number, client) := client.spawn url []
      (.ok ⟨number, some 0⟩, client)
    | some (number, connection) =>
      if connection.state.isLive then (.ok ⟨number, none⟩, client)
      else
        let (grant, client) := client.replace draw url connection
        (.ok grant, client)

/-- Closes the connection that stands for an address and forgets it, and says whether there was
one. -/
def close (client : Client) (url : String) : Bool × Client :=
  let client := { client with failures := client.failures.erase url }
  match client.number? url with
  | none => (false, client)
  | some number =>
    (true,
      ({ client with current := client.current.erase url }.onCircuit number fun circuit =>
        ((), circuit.close)).2)

/-- Closes all connections. What the store holds can still be read. -/
def closeAll (client : Client) : Client :=
  client.current.keys.foldl (fun client url => (client.close url).2) client

/-- Ends the waiting on a hash, and says whether there was anything to end. -/
def unwatch (client : Client) (url hash : String) : Except Fault Bool × Client :=
  let (result, client) := client.onCurrent url fun connection =>
    connection.unsubscribe client.adapter hash
  (result.getD (.ok false), client)

/-- Gives a delivery to the waiters on a hash, and counts them. -/
def settle (client : Client) (url hash : String) (delivery : Delivery Update) : Nat × Client :=
  let (count, client) := client.onCurrent url fun connection => connection.settle hash delivery
  (count.getD 0, client)

/-- Sends a frame on the connection that stands for an address. -/
def send (client : Client) (url : String) (frame : Json) : Option (Except Fault Unit) × Client :=
  client.onCurrent url fun connection => connection.send frame

/-- The addresses with a connection. -/
def urls (client : Client) : List String := client.current.sortedKeys

end Client

end MarketFeed
