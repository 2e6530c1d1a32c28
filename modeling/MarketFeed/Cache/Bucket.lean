import MarketFeed.Cache.Query

/-!
Caches with one record for each time, in the order of times: a later record of a time that is known
already takes the place of the earlier one, which is how an unfinished candle is refined.
-/

namespace MarketFeed

structure BucketCache (α : Type) where
  buckets : List (Int × α)
  limit : Nat

namespace BucketCache

variable {α : Type}

/-- An empty cache, with room for at least one record. -/
def new (limit : Nat) : BucketCache α := ⟨[], max limit 1⟩

/-- Puts a record into buckets in ascending order of their times. -/
def place (timestamp : Int) (record : α) : List (Int × α) → List (Int × α)
  | [] => [(timestamp, record)]
  | (time, other) :: rest =>
    if timestamp < time then (timestamp, record) :: (time, other) :: rest
    else if timestamp = time then (time, record) :: rest
    else (time, other) :: place timestamp record rest

/-- Takes a record; the oldest bucket leaves when there is no room. A record without a time is left
out. -/
def append [Stamped α] (cache : BucketCache α) (record : α) : BucketCache α :=
  match Stamped.timestamp? record with
  | none => cache
  | some timestamp =>
    let buckets := place timestamp record cache.buckets
    { cache with buckets := if cache.limit < buckets.length then buckets.tail else buckets }

def records (cache : BucketCache α) : List α := cache.buckets.map (·.2)

/-- The record of a time. -/
def get? (cache : BucketCache α) (timestamp : Int) : Option α :=
  (cache.buckets.find? (·.1 == timestamp)).map (·.2)

def last? (cache : BucketCache α) : Option α := cache.buckets.getLast?.map (·.2)

def size (cache : BucketCache α) : Nat := cache.buckets.length

end BucketCache

end MarketFeed
