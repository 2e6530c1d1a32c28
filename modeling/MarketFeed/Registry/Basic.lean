import MarketFeed.Fault.Basic
import MarketFeed.Table

/-!
Waiters on message hashes. A one-shot waiter holds a ticket for a single delivery. All persistent
waiters on a hash share one channel, of which each sees the latest delivery that it has not seen
yet; a waiter that falls behind misses the ones in between.

Delivering to a hash takes two steps, each of them atomic: `deliver` and then `removeIfIdle`. Other
callers may act in between.
-/

namespace MarketFeed

/-- What waiters are given: a value, or the fault that comes in its place. -/
abbrev Delivery (ν : Type) := Except Fault ν

inductive WaiterKind where
  | oneShot
  | persistent
deriving DecidableEq, Repr

def WaiterKind.name : WaiterKind → String
  | oneShot => "one_shot"
  | persistent => "persistent"

def WaiterKind.table : List (String × WaiterKind) :=
  [oneShot, persistent].map fun kind => (kind.name, kind)

/-- The claim of a one-shot waiter. -/
inductive Ticket (ν : Type) where
  | waiting
  | delivered (delivery : Delivery ν)
  /-- The waiter is gone. -/
  | abandoned

/-- A channel that keeps the latest delivery; `version` counts the deliveries. -/
structure Channel (ν : Type) where
  version : Nat
  latest : Option (Delivery ν)
  receivers : Nat
  isOpen : Bool

namespace Channel

variable {ν : Type}

def new : Channel ν := ⟨0, none, 1, true⟩

def join (channel : Channel ν) : Channel ν := { channel with receivers := channel.receivers + 1 }

def part (channel : Channel ν) : Channel ν := { channel with receivers := channel.receivers - 1 }

def send (channel : Channel ν) (delivery : Delivery ν) : Channel ν :=
  { channel with version := channel.version + 1, latest := some delivery }

def close (channel : Channel ν) : Channel ν := { channel with isOpen := false }

/-- The latest delivery, unless it is of the version seen last. -/
def unseen? (channel : Channel ν) (seen : Nat) : Option (Delivery ν) :=
  if channel.version = seen then none else channel.latest

end Channel

/-- The waiters on one hash, by the numbers of their channel and their tickets. -/
structure Entry where
  channel : Option Nat
  tickets : List Nat
deriving DecidableEq, Repr

namespace Entry

def empty : Entry := ⟨none, []⟩

def isIdle (entry : Entry) : Bool := entry.channel.isNone && entry.tickets.isEmpty

end Entry

/-- What a waiter holds. A ticket that has been used is gone; a receiver remembers the last version
that it has seen. -/
inductive Claim where
  | ticket (number : Option Nat)
  | receiver (channel seen : Nat)
deriving DecidableEq, Repr

structure Waiter where
  hash : String
  claim : Claim
deriving DecidableEq, Repr

def Waiter.kind (waiter : Waiter) : WaiterKind :=
  match waiter.claim with
  | .ticket _ => .oneShot
  | .receiver _ _ => .persistent

/-- Channels and tickets are numbered in the order in which they came into being; those whose entry
is gone are kept for the waiters that still hold them. -/
structure Registry (ν : Type) where
  entries : Table String Entry
  channels : List (Channel ν)
  tickets : List (Ticket ν)

namespace Registry

variable {ν : Type}

def empty : Registry ν := ⟨.empty, [], []⟩

def entry (registry : Registry ν) (hash : String) : Entry :=
  (registry.entries.get? hash).getD .empty

def putEntry (registry : Registry ν) (hash : String) (entry : Entry) : Registry ν :=
  { registry with entries := registry.entries.insert hash entry }

def changeChannel (registry : Registry ν) (number : Nat) (change : Channel ν → Channel ν) :
    Registry ν :=
  { registry with channels := registry.channels.modify number change }

def setTicket (registry : Registry ν) (number : Nat) (ticket : Ticket ν) : Registry ν :=
  { registry with tickets := registry.tickets.set number ticket }

/-- Registers a waiter. A persistent one joins the channel of its hash, if there is one. -/
def register (registry : Registry ν) (hash : String) (kind : WaiterKind) : Waiter × Registry ν :=
  let entry := registry.entry hash
  match kind, entry.channel with
  | .oneShot, _ =>
    let number := registry.tickets.length
    (⟨hash, .ticket number⟩,
      { registry with tickets := registry.tickets ++ [Ticket.waiting] }.putEntry hash
        { entry with tickets := entry.tickets ++ [number] })
  | .persistent, some number =>
    let seen := (registry.channels[number]?).elim 0 Channel.version
    (⟨hash, .receiver number seen⟩, registry.changeChannel number .join)
  | .persistent, none =>
    let number := registry.channels.length
    (⟨hash, .receiver number 0⟩,
      { registry with channels := registry.channels ++ [Channel.new] }.putEntry hash
        { entry with channel := some number })

/-- Hands a delivery to the holder of a ticket, and says whether it is still there. -/
def hand (registry : Registry ν) (number : Nat) (delivery : Delivery ν) : Bool × Registry ν :=
  match registry.tickets[number]? with
  | some .waiting => (true, registry.setTicket number (.delivered delivery))
  | _ => (false, registry)

/-- Hands a delivery to every holder of the tickets, and counts those that are still there. -/
def handAll (registry : Registry ν) (numbers : List Nat) (delivery : Delivery ν) :
    Nat × Registry ν :=
  numbers.foldl (fun (count, registry) number =>
    let (arrived, registry) := registry.hand number delivery
    (if arrived then count + 1 else count, registry)) (0, registry)

/-- Sends a delivery on a channel, and counts its receivers. -/
def broadcast (registry : Registry ν) (channel : Option Nat) (delivery : Delivery ν) :
    Nat × Registry ν :=
  match channel with
  | none => (0, registry)
  | some number =>
    ((registry.channels[number]?).elim 0 Channel.receivers,
      registry.changeChannel number (·.send delivery))

/-- Gives a delivery to all waiters of an entry, and counts them. -/
def deliverTo (registry : Registry ν) (entry : Entry) (delivery : Delivery ν) : Nat × Registry ν :=
  let (handed, registry) := registry.handAll entry.tickets delivery
  let (sent, registry) := registry.broadcast entry.channel delivery
  (handed + sent, registry)

/-- Gives a delivery to all waiters on a hash, whose tickets are used up by it. `none` if there is
no entry for the hash. -/
def deliver (registry : Registry ν) (hash : String) (delivery : Delivery ν) :
    Option Nat × Registry ν :=
  match registry.entries.get? hash with
  | none => (none, registry)
  | some entry =>
    let (count, registry) := registry.deliverTo entry delivery
    (some count, registry.putEntry hash { entry with tickets := [] })

/-- Removes the entry of a hash that nobody waits on. -/
def removeIfIdle (registry : Registry ν) (hash : String) : Registry ν :=
  if (registry.entries.get? hash).any Entry.isIdle then
    { registry with entries := registry.entries.erase hash }
  else registry

/-- Delivers to a hash. The result is the number of waiters reached. -/
def settle (registry : Registry ν) (hash : String) (delivery : Delivery ν) : Nat × Registry ν :=
  match registry.deliver hash delivery with
  | (none, registry) => (0, registry)
  | (some count, registry) => (count, registry.removeIfIdle hash)

def resolve (registry : Registry ν) (hash : String) (value : ν) : Nat × Registry ν :=
  registry.settle hash (.ok value)

def reject (registry : Registry ν) (hash : String) (fault : Fault) : Nat × Registry ν :=
  registry.settle hash (.error fault)

def closeChannel (registry : Registry ν) (channel : Option Nat) : Registry ν :=
  channel.elim registry fun number => registry.changeChannel number .close

/-- Removes the entry of a hash and rejects its waiters. -/
def rejectAndRemove (registry : Registry ν) (hash : String) (fault : Fault) : Nat × Registry ν :=
  match registry.entries.get? hash with
  | none => (0, registry)
  | some entry =>
    let (count, registry) :=
      { registry with entries := registry.entries.erase hash }.deliverTo entry (.error fault)
    (count, registry.closeChannel entry.channel)

/-- Rejects every waiter and removes all entries, hash by hash. -/
def rejectAll (registry : Registry ν) (fault : Fault) : Nat × Registry ν :=
  registry.entries.keys.foldl (fun (total, registry) hash =>
    let (count, registry) := registry.rejectAndRemove hash fault
    (total + count, registry)) (0, registry)

/-- Closes the channel of a hash, and says whether there was one. Tickets stay. -/
def dropChannel (registry : Registry ν) (hash : String) : Bool × Registry ν :=
  match registry.entries.get? hash with
  | none => (false, registry)
  | some entry =>
    (entry.channel.isSome,
      (registry.closeChannel entry.channel).putEntry hash { entry with channel := none })

/-- Ends the persistent waiting on a hash. -/
def unsubscribe (registry : Registry ν) (hash : String) : Bool × Registry ν :=
  let (dropped, registry) := registry.dropChannel hash
  (dropped, registry.removeIfIdle hash)

def contains (registry : Registry ν) (hash : String) : Bool := registry.entries.contains hash

def isPersistent (registry : Registry ν) (hash : String) : Bool :=
  (registry.entry hash).channel.isSome

def pendingOneShot (registry : Registry ν) (hash : String) : Nat :=
  (registry.entry hash).tickets.length

def hashes (registry : Registry ν) : List String := registry.entries.sortedKeys

def size (registry : Registry ν) : Nat := registry.entries.size

/-- What a waiter finds when it looks for a delivery. -/
inductive Arrival (ν : Type) where
  | delivery (delivery : Delivery ν)
  | nothingYet
  /-- Nothing will come any more. -/
  | over

/-- Looks for the next delivery to a waiter, which is taken if it is there. -/
def take (registry : Registry ν) (waiter : Waiter) : Arrival ν × Waiter :=
  match waiter.claim with
  | .ticket none => (.over, waiter)
  | .ticket (some number) =>
    match registry.tickets[number]? with
    | some (.delivered delivery) => (.delivery delivery, { waiter with claim := .ticket none })
    | some .waiting => (.nothingYet, waiter)
    | _ => (.over, { waiter with claim := .ticket none })
  | .receiver number seen =>
    match registry.channels[number]? with
    | none => (.over, waiter)
    | some channel =>
      match channel.unseen? seen with
      | some delivery =>
        (.delivery delivery, { waiter with claim := .receiver number channel.version })
      | none => (if channel.isOpen then .nothingYet else .over, waiter)

/-- What a waiter is told when nothing will come any more. -/
def noLongerRegistered (waiter : Waiter) : Fault :=
  .connectionClosed ("message hash '" ++ waiter.hash ++ "' is no longer registered")

/-- Gives up a ticket; a receiver stays on its channel. -/
def abandonTicket (registry : Registry ν) (waiter : Waiter) : Waiter × Registry ν :=
  match waiter.claim with
  | .ticket (some number) => (⟨waiter.hash, .ticket none⟩, registry.setTicket number .abandoned)
  | _ => (waiter, registry)

/-- Gives up whatever a waiter holds. -/
def discard (registry : Registry ν) (waiter : Waiter) : Registry ν :=
  match waiter.claim with
  | .ticket (some number) => registry.setTicket number .abandoned
  | .ticket none => registry
  | .receiver number _ => registry.changeChannel number .part

end Registry

end MarketFeed
