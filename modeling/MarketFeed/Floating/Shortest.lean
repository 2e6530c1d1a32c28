/-!
The shortest decimal that reads back as a given double: of all powers of ten the largest that has
a multiple within the double's rounding interval, and of its multiples there the nearest one.
-/

namespace MarketFeed

/-- The number `digits * 10 ^ exponent`. -/
structure ShortDecimal where
  digits : Nat
  exponent : Int
deriving DecidableEq, Repr

/-- A double has a fraction of 52 bits. -/
def fractionLimit : Nat := 0x10000000000000

/-- The reals that round to a double, as fractions over one denominator. The ends belong to the
interval exactly when `closed`. -/
structure RoundingInterval where
  low : Nat
  value : Nat
  high : Nat
  denominator : Nat
  closed : Bool
deriving DecidableEq, Repr

namespace RoundingInterval

/-- The interval of the finite double with the given exponent and fraction bits. The gap below a
power of two is half as wide as the gap above it. -/
def ofBits (exponentBits fraction : Nat) : RoundingInterval :=
  let mantissa := if exponentBits = 0 then fraction else fraction + fractionLimit
  let below := if fraction = 0 ∧ 1 < exponentBits then 1 else 2
  let shift := max exponentBits 1
  let up := 1 <<< (shift - 1077)
  ⟨(4 * mantissa - below) * up, 4 * mantissa * up, (4 * mantissa + 2) * up, 1 <<< (1077 - shift),
    mantissa % 2 == 0⟩

/-- The same interval measured in units of `10 ^ exponent`. -/
def inUnits (r : RoundingInterval) (exponent : Int) : RoundingInterval :=
  let up := Nat.pow 10 (-exponent).toNat
  ⟨r.low * up, r.value * up, r.high * up, r.denominator * Nat.pow 10 exponent.toNat, r.closed⟩

def holds (r : RoundingInterval) (n : Nat) : Bool :=
  let m := n * r.denominator
  if r.closed then r.low ≤ m && m ≤ r.high else r.low < m && m < r.high

/-- The whole number in the interval that is nearest to the value, the even one of two. -/
def nearest? (r : RoundingInterval) : Option Nat :=
  let below := r.value / r.denominator
  let distance := r.value % r.denominator
  match r.holds below, r.holds (below + 1) with
  | true, true =>
    some (if 2 * distance < r.denominator ∨ (2 * distance = r.denominator ∧ below % 2 = 0)
      then below else below + 1)
  | true, false => some below
  | false, true => some (below + 1)
  | false, false => none

/-- Tries the powers of ten from `10 ^ exponent` downwards, `fuel` of them. -/
def coarsest (r : RoundingInterval) : (fuel : Nat) → (exponent : Int) → ShortDecimal
  | 0, exponent => ⟨0, exponent⟩
  | fuel + 1, exponent =>
    match (r.inUnits exponent).nearest? with
    | some digits => ⟨digits, exponent⟩
    | none => coarsest r fuel (exponent - 1)

end RoundingInterval

namespace ShortDecimal

/-- The shortest decimal for the magnitude of a finite double that is not zero. -/
def ofFloat (x : Float) : ShortDecimal :=
  let bits := x.toBits.toNat
  (RoundingInterval.ofBits (bits / fractionLimit % 2048) (bits % fractionLimit)).coarsest 640 308

end ShortDecimal

end MarketFeed
