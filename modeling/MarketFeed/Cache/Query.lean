import MarketFeed.Record.Candle
import MarketFeed.Record.Order

/-!
Records as caches see them, and the questions that every cache answers about the records it holds.
Answers run from the oldest record to the newest.
-/

namespace MarketFeed

/-- What records are selected by. -/
class Stamped (α : Type) where
  symbol? : α → Option String
  timestamp? : α → Option Int

instance : Stamped Trade := ⟨fun trade => some trade.symbol, fun trade => some trade.timestamp⟩

instance : Stamped Order := ⟨fun order => some order.symbol, fun order => order.timestamp⟩

instance : Stamped Candle := ⟨fun _ => none, fun candle => some candle.timestamp⟩

/-- A question for records: of one symbol, from some time on, the newest ones only. What is left out
does not restrict the answer. -/
structure Query where
  symbol : Option String
  since : Option Int
  limit : Option Nat
deriving DecidableEq, Repr

namespace Query

variable {α : Type} [Stamped α]

/-- Whether a record is asked for. One without a time is not when the question has one. -/
def admits (query : Query) (record : α) : Bool :=
  query.symbol.all (fun symbol => Stamped.symbol? record == some symbol) &&
    query.since.all (fun since => (Stamped.timestamp? record).any (since ≤ ·))

/-- The answer, gathered from the newest record backwards. -/
def select (query : Query) (records : List α) : List α :=
  let newestFirst := records.reverse.filter query.admits
  (query.limit.elim newestFirst newestFirst.take).reverse

/-- The newest records, of one symbol or of all, whatever their times. -/
def latest (symbol : Option String) (limit : Option Nat) (records : List α) : List α :=
  let newestFirst := records.reverse.filter fun record =>
    symbol.all fun symbol => Stamped.symbol? record == some symbol
  (limit.elim newestFirst newestFirst.take).reverse

end Query

end MarketFeed
