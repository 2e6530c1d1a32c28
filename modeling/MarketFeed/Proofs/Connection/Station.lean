import Mathlib.Tactic.Lemma
import MarketFeed.Connection.Call

/-!
# A connection and the calls on it

Many tasks work on one connection: one dials, one takes what comes in, one watches for silence, and
callers make calls that have to wait. Each of their steps is atomic, and they come in any order. To
close the connection takes two steps. With the first one its fault is fixed; the second one rejects
the waiters. Other tasks may act in between, and may try to close the connection as well.
-/

namespace MarketFeed

/-- A connection with what it shares with others, and all calls that were made on it. -/
structure Station where
  circuit : Circuit
  calls : List Progress

namespace Station

inductive Step where
  | dial (delayed : Bool)
  | opened (now : Int)
  | text (now : Int) (text : String)
  | bytes (now : Int) (bytes : List UInt8)
  | ping (now : Int)
  /-- A task has met a fault that ends the connection. -/
  | fail (fault : Fault)
  | close
  | silence (elapsed : Nat)
  | probe (now : Int)
  /-- The second step of closing. -/
  | finish
  | begin (purpose : Purpose)
  | advance (index : Nat)
  | unsubscribe (hash : String)
  | settle (hash : String) (delivery : Delivery Update)
  | send (frame : Json)
  | drop (waiter : Waiter)
  /-- Others write to the store. -/
  | feed (store : FeedStore)

/-- A connection that nothing has happened on. -/
def new (url : String) (settings : ConnectionSettings) (records : List SubscriptionRecord)
    (store : FeedStore) : Station :=
  ⟨⟨.new url settings records, store, []⟩, []⟩

def connection (station : Station) : Connection := station.circuit.connection

def registry (station : Station) : Registry Update := station.connection.registry

/-- The calls with the one that sends private records again, if there are any. -/
def withRestore (calls : List Progress) (records : List SubscriptionRecord) : List Progress :=
  if records.isEmpty then calls
  else calls ++ [.blocked (.begin calls.length (.restore records))]

/-- Changes the connection alone. -/
def serve {α : Type} (station : Station) (change : Connection → α × Connection) : Station :=
  { station with circuit := (station.circuit.onConnection change).2 }

/-- What a step does before it closes the connection, and the fault that it closes it with, if it
does. A second step of closing that is not due does nothing, nor does a call that is over. -/
def work (adapter : Adapter) (station : Station) : Step → Option Fault × Station
  | .dial delayed => (none, { station with circuit := station.circuit.dial delayed })
  | .opened now =>
    let (records, circuit) := station.circuit.opened now
    (none, ⟨circuit, withRestore station.calls records⟩)
  | .text now text =>
    let (fault, circuit) := station.circuit.takeText adapter now text
    (fault, { station with circuit })
  | .bytes now bytes =>
    let (fault, circuit) := station.circuit.takeBytes adapter now bytes
    (fault, { station with circuit })
  | .ping now => (none, { station with circuit := station.circuit.countReceived now 0 })
  | .fail fault => (some fault, station)
  | .close =>
    let (fault, circuit) := station.circuit.sayClose
    (fault, { station with circuit })
  | .silence elapsed =>
    let (fault, circuit) := station.circuit.reportSilence elapsed
    (fault, { station with circuit })
  | .probe now => (none, { station with circuit := station.circuit.probe adapter now })
  | .finish =>
    (none,
      if station.connection.state = .closing then
        { station with circuit := station.circuit.finishClosing station.connection.closeReason }
      else station)
  | .begin purpose =>
    (none, { station with
      calls := station.calls ++ [.blocked (.begin station.calls.length purpose)] })
  | .advance index =>
    (none,
      match station.calls[index]? with
      | some (.blocked call) =>
        let (progress, connection) := call.advance adapter station.connection
        ⟨{ station.circuit with connection }, station.calls.set index progress⟩
      | _ => station)
  | .unsubscribe hash => (none, station.serve (·.unsubscribe adapter hash))
  | .settle hash delivery => (none, station.serve (·.settle hash delivery))
  | .send frame => (none, station.serve (·.send frame))
  | .drop waiter =>
    (none, station.serve fun connection =>
      ((), { connection with registry := connection.registry.discard waiter }))
  | .feed store => (none, { station with circuit := { station.circuit with store } })

def after (adapter : Adapter) (station : Station) (step : Step) : Station :=
  match station.work adapter step with
  | (none, station) => station
  | (some fault, station) =>
    { station with circuit := (station.circuit.beginTeardown fault).2 }

def run (adapter : Adapter) (station : Station) (steps : List Step) : Station :=
  steps.foldl (after adapter) station

lemma run_append (adapter : Adapter) (station : Station) (early late : List Step) :
    station.run adapter (early ++ late) = (station.run adapter early).run adapter late :=
  List.foldl_append

/-- The fault that a step closes the connection with, and what it is told about that. -/
def teardown? (adapter : Adapter) (station : Station) (step : Step) : Option (Fault × Bool) :=
  match station.work adapter step with
  | (none, _) => none
  | (some fault, station) => some (fault, (station.circuit.beginTeardown fault).1)

/-- All attempts to close the connection. -/
def teardowns (adapter : Adapter) (station : Station) : List Step → List (Fault × Bool)
  | [] => []
  | step :: rest =>
    (station.teardown? adapter step).toList ++ (station.after adapter step).teardowns adapter rest

/-- The waiters that a step drops. -/
def Step.drops : Step → List Waiter
  | .drop waiter => [waiter]
  | _ => []

lemma Step.eq_of_mem_drops {step : Step} {waiter : Waiter} (h : waiter ∈ step.drops) :
    step = .drop waiter := by
  cases step with
  | drop other => rw [List.mem_singleton.mp h]
  | _ => exact absurd h List.not_mem_nil

end Station

end MarketFeed
