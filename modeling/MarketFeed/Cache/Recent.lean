import MarketFeed.Cache.Query

/-!
Caches of the latest records in the order in which they arrived.
-/

namespace MarketFeed

structure RecentCache (α : Type) where
  records : List α
  limit : Nat

namespace RecentCache

variable {α : Type}

/-- An empty cache, with room for at least one record. -/
def new (limit : Nat) : RecentCache α := ⟨[], max limit 1⟩

/-- Adds a record at the end; the first one leaves when there is no room. -/
def append (cache : RecentCache α) (record : α) : RecentCache α :=
  let records := cache.records ++ [record]
  { cache with records := if cache.limit < records.length then records.tail else records }

def clear (cache : RecentCache α) : RecentCache α := { cache with records := [] }

def last? (cache : RecentCache α) : Option α := cache.records.getLast?

def size (cache : RecentCache α) : Nat := cache.records.length

end RecentCache

end MarketFeed
