/-!
Decimal numbers of bounded size: an integer coefficient below `2 ^ 96` in absolute value over a
power of ten of at most `10 ^ 28`. The scale is part of the number, so `1.5` and `1.50` are two
numbers of one value; comparison looks at the value alone.
-/

namespace MarketFeed

/-- The bound `2 ^ 96` that every coefficient stays below. -/
def Decimal.limit : Nat := 0x1000000000000000000000000

/-- The largest number of digits after the point. -/
def Decimal.maxScale : Nat := 28

/-- The number `coefficient / 10 ^ scale`. Zero has no sign because an integer zero has none. -/
structure Decimal where
  coefficient : Int
  scale : Nat
  natAbs_lt : coefficient.natAbs < Decimal.limit
  scale_le : scale ≤ Decimal.maxScale
deriving DecidableEq, Repr

namespace Decimal

/-- The operation whose exact result has no representation. -/
inductive Overflow where
  | addition
  | subtraction
  | multiplication
  | division
deriving DecidableEq, Repr

def Overflow.message : Overflow → String
  | addition => "Addition overflowed"
  | subtraction => "Subtraction overflowed"
  | multiplication => "Multiplication overflowed"
  | division => "Division overflowed"

def zero : Decimal := ⟨0, 0, by decide, by decide⟩

def two : Decimal := ⟨2, 0, by decide, by decide⟩

instance : Inhabited Decimal := ⟨zero⟩

def isZero (a : Decimal) : Bool := a.coefficient == 0

/-- The coefficient that `a` has when it is written with `scale` digits after the point,
for a `scale` that is not below its own. -/
def coefficientAt (a : Decimal) (scale : Nat) : Int :=
  a.coefficient * Nat.pow 10 (scale - a.scale)

/-- Order by value: both sides are brought to the larger scale. -/
def compare (a b : Decimal) : Ordering :=
  Ord.compare (a.coefficientAt (max a.scale b.scale)) (b.coefficientAt (max a.scale b.scale))

def lt (a b : Decimal) : Bool := a.compare b == .lt

def sameValue (a b : Decimal) : Bool := a.compare b == .eq

def isPositive (a : Decimal) : Bool := 0 < a.coefficient

/-- The larger of two numbers; of two equal ones the first, with its scale. -/
protected def max (a b : Decimal) : Decimal := if a.lt b then b else a

def neg (a : Decimal) : Decimal :=
  ⟨-a.coefficient, a.scale, by simpa using a.natAbs_lt, a.scale_le⟩

/-- Removes trailing zeros after the point, at most `fuel` of them. -/
def stripZeros : (fuel : Nat) → Decimal → Decimal
  | 0, a => a
  | fuel + 1, a =>
    if a.scale ≠ 0 ∧ a.coefficient % 10 = 0 then
      stripZeros fuel ⟨a.coefficient / 10, a.scale - 1,
        by have := a.natAbs_lt; omega, by have := a.scale_le; omega⟩
    else a

/-- The shortest way to write the value: no trailing zero after the point. -/
def normalize (a : Decimal) : Decimal := a.stripZeros a.scale

end Decimal

end MarketFeed
