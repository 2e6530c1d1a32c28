import MarketFeed.Cache.Query
import MarketFeed.Table

/-!
Caches with one record for each symbol and id. A record is found by its id or else by the id that a
client gave it; a newer record of a known id is merged into the older one.

Records sit in slots that are counted from the beginning of time, so that the index of positions
stays right when records leave at the front. A record that moves to the end leaves an empty slot;
empty slots are closed up when they outnumber the records by far.
-/

namespace MarketFeed

/-- A record that is kept under keys. -/
class Identified (α : Type) extends Stamped α where
  id? : α → Option String
  clientId? : α → Option String
  /-- Folds a newer record of the same key into the state. -/
  merge : (newer : α) → Attempt α Unit

instance : Identified Trade := ⟨(·.id), fun _ => none, set⟩

instance : Identified Order :=
  ⟨fun order => if order.id.isEmpty then none else some order.id, (·.clientId), Order.mergeUpdate⟩

/-- Where a record goes when it changes. -/
inductive Placement where
  | keep
  | moveToNewest
deriving DecidableEq, Repr

def Placement.standard : Placement := .keep

def Placement.name : Placement → String
  | keep => "keep"
  | moveToNewest => "move"

def Placement.table : List (String × Placement) :=
  [keep, moveToNewest].map fun placement => (placement.name, placement)

/-- Positions of records by symbol and key. -/
abbrev KeyIndex := Table (String × String) Nat

namespace KeyIndex

def find? (index : KeyIndex) (symbol : String) (key : Option String) : Option Nat :=
  key.bind fun key => index.get? (symbol, key)

def enter (index : KeyIndex) (symbol : String) (key : Option String) (position : Nat) : KeyIndex :=
  key.elim index fun key => index.insert (symbol, key) position

/-- Removes a key, unless it has come to stand for another position. -/
def leave (index : KeyIndex) (symbol : String) (key : Option String) (position : Nat) : KeyIndex :=
  key.elim index fun key =>
    if index.get? (symbol, key) = some position then index.erase (symbol, key) else index

end KeyIndex

/-- The keys that a record is entered under. -/
structure RecordKeys where
  symbol : String
  id : Option String
  clientId : Option String
deriving DecidableEq, Repr

def RecordKeys.of {α : Type} [Identified α] (record : α) : RecordKeys :=
  ⟨(Stamped.symbol? record).getD "", Identified.id? record, Identified.clientId? record⟩

/-- Position `base` is that of the first slot; `live` counts the records. -/
structure KeyedCache (α : Type) where
  slots : List (Option α)
  base : Nat
  live : Nat
  limit : Nat
  placement : Placement
  byId : KeyIndex
  byClientId : KeyIndex

namespace KeyedCache

variable {α : Type}

/-- An empty cache, with room for at least one record. -/
def new (limit : Nat) (placement : Placement) : KeyedCache α :=
  ⟨[], 0, 0, max limit 1, placement, .empty, .empty⟩

/-- The records from the oldest on. -/
def records (cache : KeyedCache α) : List α := cache.slots.filterMap id

def size (cache : KeyedCache α) : Nat := cache.live

/-- The record at a position. -/
def slot? (cache : KeyedCache α) (position : Nat) : Option α :=
  if cache.base ≤ position then (cache.slots[position - cache.base]?).join else none

def setSlot (cache : KeyedCache α) (position : Nat) (content : Option α) : KeyedCache α :=
  { cache with slots := cache.slots.set (position - cache.base) content }

def nextPosition (cache : KeyedCache α) : Nat := cache.base + cache.slots.length

/-- The position of a key: that of the record with this id, or else with this client id. -/
def position? (cache : KeyedCache α) (symbol key : String) : Option Nat :=
  cache.byId.get? (symbol, key) <|> cache.byClientId.get? (symbol, key)

/-- The record of a key. -/
def get? (cache : KeyedCache α) (symbol key : String) : Option α :=
  (cache.position? symbol key).bind cache.slot?

def contains (cache : KeyedCache α) (symbol key : String) : Bool :=
  (cache.position? symbol key).isSome

def enter (cache : KeyedCache α) (keys : RecordKeys) (position : Nat) : KeyedCache α :=
  { cache with
    byId := cache.byId.enter keys.symbol keys.id position
    byClientId := cache.byClientId.enter keys.symbol keys.clientId position }

def leave (cache : KeyedCache α) (keys : RecordKeys) (position : Nat) : KeyedCache α :=
  { cache with
    byId := cache.byId.leave keys.symbol keys.id position
    byClientId := cache.byClientId.leave keys.symbol keys.clientId position }

/-- Drops the empty slots at the front. -/
def trimFront (cache : KeyedCache α) : KeyedCache α :=
  { cache with
    slots := cache.slots.dropWhile Option.isNone
    base := cache.base + (cache.slots.takeWhile Option.isNone).length }

variable [Identified α]

/-- The records of one symbol. -/
def symbolRecords (cache : KeyedCache α) (symbol : String) : List α :=
  cache.records.filter fun record => Stamped.symbol? record == some symbol

/-- The position of the record that a newer one is merged into. -/
def match? (cache : KeyedCache α) (record : α) : Option Nat :=
  let keys := RecordKeys.of record
  cache.byId.find? keys.symbol keys.id <|> cache.byClientId.find? keys.symbol keys.clientId

/-- Puts a record into a new slot at the end. -/
def push (cache : KeyedCache α) (record : α) : KeyedCache α :=
  { cache.enter (.of record) cache.nextPosition with slots := cache.slots ++ [some record] }

/-- Removes the oldest record. -/
def evictOldest (cache : KeyedCache α) : KeyedCache α :=
  let cache := cache.trimFront
  match cache.slots with
  | some record :: rest =>
    { cache.leave (.of record) cache.base with
      slots := rest, base := cache.base + 1, live := cache.live - 1 }.trimFront
  | _ => cache

/-- The largest number of slots for a number of records. -/
def maxSlots (live : Nat) : Nat := 2 * live + 16

/-- Closes up the empty slots when there are too many of them. -/
def compact (cache : KeyedCache α) : KeyedCache α :=
  if cache.slots.length ≤ maxSlots cache.live then cache
  else
    cache.records.foldl push { cache with slots := [], byId := .empty, byClientId := .empty }

/-- Enters a changed record under its new keys, where its placement puts it. -/
def rekey (cache : KeyedCache α) (position : Nat) (oldKeys : RecordKeys) : KeyedCache α :=
  let cache := cache.leave oldKeys position
  match cache.slot? position with
  | none => cache
  | some record =>
    if cache.placement = .moveToNewest ∧ position + 1 ≠ cache.nextPosition then
      ((cache.setSlot position none).push record).trimFront.compact
    else cache.enter (.of record) position

/-- Changes the record at a position. -/
def update {β : Type} (position : Nat) (record : α) (change : Attempt α β) :
    Attempt (KeyedCache α) β := do
  let result ← change.onPart record fun record cache => cache.setSlot position (some record)
  modify (·.rekey position (.of record))
  return result

/-- Takes a record: it is merged into the one of the same key, or else added at the end. The oldest
record leaves when there is no room. -/
def append (record : α) : Attempt (KeyedCache α) Unit := do
  let cache ← get
  match (cache.match? record).bind fun position => (cache.slot? position).map ((position, ·)) with
  | some (position, older) => update position older (Identified.merge record)
  | none =>
    let cache := { cache.push record with live := cache.live + 1 }
    set (if cache.limit < cache.live then cache.evictOldest else cache)

/-- Changes the record of a key, if there is one. -/
def alter {β : Type} (symbol key : String) (change : Attempt α β) :
    Attempt (KeyedCache α) (Option β) := do
  let cache ← get
  match (cache.position? symbol key).bind fun position =>
    (cache.slot? position).map ((position, ·)) with
  | some (position, record) => return some (← update position record change)
  | none => return none

end KeyedCache

end MarketFeed
