import MarketFeed.Json.Shape

/-!
Waiting between attempts to connect: each failure multiplies the delay, up to a maximum, and a
random share is added so that clients do not return all at once. Delays are computed in doubles
and cut to whole milliseconds.
-/

namespace MarketFeed

structure Backoff where
  baseDelay : Nat
  maxDelay : Nat
  jitterFactor : Float
  multiplier : Float

namespace Backoff

open Json (RecordField Reader)

def standard : Backoff := ⟨1000, 60000, 0.25, 2.0⟩

/-- Multiplies `product` by `base ^ exponent`, squaring the base for every bit of the exponent. -/
def powerOnto (product base : Float) (exponent : Nat) : Float :=
  let product := if exponent % 2 = 1 then product * base else product
  if exponent / 2 = 0 then product else powerOnto product (base * base) (exponent / 2)
termination_by exponent

def power (base : Float) (exponent : Nat) : Float := powerOnto 1.0 base exponent

/-- The largest exponent that a power is taken to. -/
def maxExponent : Nat := 0x7FFFFFFF

/-- The smaller of two doubles; of a number and no number, the number. -/
def lesser (x y : Float) : Float :=
  if x.isNaN then y else if y.isNaN then x else if y < x then y else x

def millis (n : Nat) : Float := n.toUInt64.toFloat

/-- The delay in milliseconds, as a double that no cut has been applied to. -/
def cappedDelay (backoff : Backoff) (attempt : Nat) : Float :=
  lesser (millis backoff.baseDelay * power backoff.multiplier (min attempt maxExponent))
    (millis backoff.maxDelay)

/-- Whole milliseconds, none below zero. -/
def toMillis (x : Float) : Nat := if 0 < x then x.toUInt64.toNat else 0

/-- The delay before an attempt, without the random share; attempt `0` is the first one. -/
def plainDelay (backoff : Backoff) (attempt : Nat) : Nat := toMillis (backoff.cappedDelay attempt)

def hasJitter (backoff : Backoff) : Bool := 0 < backoff.jitterFactor

/-- The delay before an attempt, with the share that `draw`, a number from zero to one, gives. -/
def delay (backoff : Backoff) (draw : Float) (attempt : Nat) : Nat :=
  let capped := backoff.cappedDelay attempt
  toMillis (if backoff.hasJitter then capped + draw * (capped * backoff.jitterFactor) else capped)

def shape : List (RecordField Backoff) :=
  [.defaulted "base_delay" (fun _ => Reader.natural 64)
      fun backoff baseDelay => { backoff with baseDelay },
    .defaulted "max_delay" (fun _ => Reader.natural 64)
      fun backoff maxDelay => { backoff with maxDelay },
    .defaulted "jitter_factor" (fun _ => Reader.double)
      fun backoff jitterFactor => { backoff with jitterFactor },
    .defaulted "multiplier" (fun _ => Reader.double)
      fun backoff multiplier => { backoff with multiplier }]

def reader : (levels : Nat) → Reader Backoff := Reader.record shape standard

def toJson (backoff : Backoff) : Json :=
  .ofMembers
    [("base_delay", .ofNat backoff.baseDelay),
      ("max_delay", .ofNat backoff.maxDelay),
      ("jitter_factor", .float backoff.jitterFactor),
      ("multiplier", .float backoff.multiplier)]

end Backoff

end MarketFeed
