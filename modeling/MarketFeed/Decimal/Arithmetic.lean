import MarketFeed.Decimal.Basic

/-!
Sum, difference, product and quotient of decimals. A result is exact where the coefficient fits;
otherwise it loses as few digits as possible, a half going to the even neighbour. Where no digit
after the point is left to lose, the operation overflows.
-/

namespace MarketFeed.Decimal

/-- The integer nearest to `n / d`; a half goes to the even neighbour. -/
def roundHalfEven (n d : Nat) : Nat :=
  let q := n / d
  let r := n % d
  if 2 * r < d ∨ (2 * r = d ∧ q % 2 = 0) then q else q + 1

/-- The number with the sign of `sign` and the given magnitude, if it is in range. -/
def ofMagnitude? (sign : Int) (magnitude scale : Nat) : Option Decimal :=
  if h : magnitude < limit ∧ scale ≤ maxScale then
    some ⟨if sign < 0 then -(magnitude : Int) else magnitude, scale,
      by split <;> simp [h.1], h.2⟩
  else none

/-- `coefficient / 10 ^ scale` without its last `drop` digits or, where that is still too large,
without as few more as are needed. -/
def shorten? (coefficient : Int) (scale drop : Nat) : Option Decimal :=
  let kept := roundHalfEven coefficient.natAbs (Nat.pow 10 drop)
  match ofMagnitude? coefficient kept (scale - drop) with
  | some a => some a
  | none => if drop < scale then shorten? coefficient scale (drop + 1) else none
termination_by scale - drop

/-- `coefficient / 10 ^ scale` with as many of its digits as a decimal holds. -/
def round? (coefficient : Int) (scale : Nat) : Option Decimal :=
  shorten? coefficient scale 0

/-- The sum. A zero on either side leaves the other side as it is written. -/
def add? (a b : Decimal) : Option Decimal :=
  if a.isZero then some b
  else if b.isZero then some a
  else
    let scale := max a.scale b.scale
    round? (a.coefficientAt scale + b.coefficientAt scale) scale

/-- The difference. A zero on the right leaves the left side as it is written. -/
def sub? (a b : Decimal) : Option Decimal :=
  if a.isZero then some b.neg
  else if b.isZero then some a
  else
    let scale := max a.scale b.scale
    round? (a.coefficientAt scale - b.coefficientAt scale) scale

/-- Two coefficients below this bound whose scales sum to more than `tinyScale` multiply to zero. -/
def smallBound : Nat := 0x100000000

def tinyScale : Nat := 47

/-- The product, with the sum of the scales. A zero factor gives a plain zero, and so do two small
factors whose product lies far below the last digit. -/
def mul? (a b : Decimal) : Option Decimal :=
  if a.isZero || b.isZero then some zero
  else if a.coefficient.natAbs < smallBound ∧ b.coefficient.natAbs < smallBound ∧
      tinyScale < a.scale + b.scale then some zero
  else round? (a.coefficient * b.coefficient) (a.scale + b.scale)

/-- The number nearest to `n / d` over `10 ^ scale`; where that is too large, its last digit
goes. -/
def nearest? (sign : Int) (n d scale : Nat) : Option Decimal :=
  match ofMagnitude? sign (roundHalfEven n d) scale with
  | some a => some a
  | none => if scale = 0 then none else ofMagnitude? sign (roundHalfEven n (10 * d)) (scale - 1)

/-- Digits that a quotient gains at a time. -/
def quotientStep : Nat := 9

/-- How many digits, at most `most` of them, fit behind the digits `q`. -/
def room (q : Nat) : (most : Nat) → Nat
  | 0 => 0
  | most + 1 => if q * Nat.pow 10 (most + 1) < limit then most + 1 else room q most

theorem room_le (q most : Nat) : room q most ≤ most := by
  induction most with
  | zero => exact Nat.le_refl 0
  | succ most ih =>
    rw [room]
    split
    · exact Nat.le_refl _
    · exact Nat.le_succ_of_le ih

/-- How many digits are appended at once to the quotient of `n` and `d`, whose last digit stands
`spare` places before the last one that a decimal can have: an exact quotient is only written out to
its units. -/
def stepSize (n d spare : Nat) : Nat :=
  if n % d = 0 then min quotientStep (spare - maxScale)
  else room (n / d) (min quotientStep spare)

theorem stepSize_le (n d spare : Nat) : stepSize n d spare ≤ spare := by
  have := room_le (n / d) (min quotientStep spare)
  rw [stepSize]
  split <;> omega

/-- Long division of `n` by `d`. Digits are appended in steps until the quotient is exact and is
written out to its units, or until no more digits fit. -/
def divideFrom? (sign : Int) (n d spare : Nat) : Option Decimal :=
  let more := stepSize n d spare
  let longer := n * Nat.pow 10 more
  if more = 0 then
    if spare ≤ maxScale then nearest? sign n d (maxScale - spare) else none
  else if longer / d < limit then divideFrom? sign longer d (spare - more)
  else if spare - more ≤ maxScale then nearest? sign longer d (maxScale - (spare - more))
  else none
termination_by spare
decreasing_by
  have := stepSize_le n d spare
  omega

/-- Removes digits after the point if there are as many and all of them are zeros. -/
def dropZeros (digits : Nat) (a : Decimal) : Decimal :=
  let unit := Nat.pow 10 digits
  if digits ≤ a.scale ∧ a.coefficient % unit = 0 then
    (ofMagnitude? a.coefficient (a.coefficient.natAbs / unit) (a.scale - digits)).getD a
  else a

/-- Removes eight zeros at a time while the coefficient has 32 zero bits at its end. -/
def dropEights : (fuel : Nat) → Decimal → Decimal
  | 0, a => a
  | fuel + 1, a =>
    let shorter := a.dropZeros 8
    if a.coefficient % 0x100000000 = 0 ∧ shorter.scale < a.scale then dropEights fuel shorter else a

/-- Removes trailing zeros after the point, in groups: up to seven of them in any case. -/
def trim (a : Decimal) : Decimal := (((a.dropEights a.scale).dropZeros 4).dropZeros 2).dropZeros 1

/-- The quotient. One that is exact with the difference of the scales keeps that scale; any other
has as many digits as are needed, or as fit, and is then trimmed. -/
def div? (a b : Decimal) : Option Decimal :=
  let n := a.coefficient.natAbs
  let d := b.coefficient.natAbs
  let sign := a.coefficient.sign * b.coefficient.sign
  if d = 0 then none
  else if n = 0 then some zero
  else
    let quotient := divideFrom? sign n d (maxScale + b.scale - a.scale)
    if n % d = 0 then quotient else quotient.map trim

def add (a b : Decimal) : Except Overflow Decimal :=
  (a.add? b).elim (.error .addition) .ok

def sub (a b : Decimal) : Except Overflow Decimal :=
  (a.sub? b).elim (.error .subtraction) .ok

def mul (a b : Decimal) : Except Overflow Decimal :=
  (a.mul? b).elim (.error .multiplication) .ok

def div (a b : Decimal) : Except Overflow Decimal :=
  (a.div? b).elim (.error .division) .ok

/-- The sum of a list, from the left, starting at zero. -/
def sum (as : List Decimal) : Except Overflow Decimal :=
  as.foldlM add zero

end MarketFeed.Decimal
