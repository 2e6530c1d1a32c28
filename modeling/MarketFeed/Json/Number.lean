import MarketFeed.Json.Reader

/-!
Numbers in a document. A number without point and exponent that fits 64 bits is an integer; any
other number is a double, formed from its first digits (as many as fit 64 bits) and one
multiplication or division by a power of ten.
-/

namespace MarketFeed.Json

inductive Number where
  | int (i : Int)
  | float (x : Float)

def wordMax : Nat := 0xFFFFFFFFFFFFFFFF

def digitValue (c : Char) : Nat := c.toNat - '0'.toNat

/-- Appends digits to `n` while it fits 64 bits; also the number of digits left over. -/
def absorb (n : Nat) : List Char → Nat × Nat
  | [] => (n, 0)
  | c :: rest =>
    let longer := n * 10 + digitValue c
    if longer ≤ wordMax then absorb longer rest else (n, rest.length + 1)

/-- The largest power of ten that is a double. -/
def maxPower : Nat := 308

def powerOfTen (n : Nat) : Float := OfScientific.ofScientific 1 false n

/-- Divides by `10 ^ exponent` in steps of the largest power. -/
def divideByPower (x : Float) (exponent : Nat) : Float :=
  if exponent ≤ maxPower then x / powerOfTen exponent
  else if x == 0 then x
  else divideByPower (x / powerOfTen maxPower) (exponent - maxPower)
termination_by exponent
decreasing_by simp [maxPower] at *; omega

/-- The double near `n * 10 ^ exponent`; one beyond the largest double is refused. -/
def scaled (n : Nat) (exponent : Int) : Except Fault Float :=
  let x := n.toUInt64.toFloat
  if exponent < 0 then .ok (divideByPower x exponent.natAbs)
  else if n = 0 then .ok 0
  else if exponent.toNat ≤ maxPower then
    let y := x * powerOfTen exponent.toNat
    if y.isInf then .error .malformed else .ok y
  else .error .malformed

/-- The exponent that digits denote, unless it passes 31 bits. -/
def exponentValue? (digits : List Char) : Option Nat :=
  let n := digits.foldl (fun n c => n * 10 + digitValue c) 0
  if n < 0x80000000 then some n else none

def signed (negative : Bool) (x : Float) : Float := if negative then -x else x

namespace Reader

/-- Reads the exponent behind the digits `n`, which stand `exponent` places too far right. -/
def exponentPart (n : Nat) (exponent : Int) : Reader Float := do
  skipOne
  let negative ← do
    if ← accept '+' then pure false else accept '-'
  match ← takeDigits with
  | [] => failHere
  | digits =>
    match exponentValue? digits with
    | some e => scaled n (if negative then exponent - e else exponent + e)
    | none => if n ≠ 0 ∧ !negative then throw .malformed else return 0

/-- Reads what follows the digits `n` of a number with a point or an exponent. -/
def fractionPart (n : Nat) (dropped : Nat) : Reader Float := do
  if ← accept '.' then
    match ← takeDigits with
    | [] => failHere
    | digits =>
      let (n, rest) := absorb n digits
      let exponent := (dropped : Int) - (digits.length - rest : Nat)
      match (← get).head? with
      | some 'e' | some 'E' => exponentPart n exponent
      | _ => scaled n exponent
  else
    match (← get).head? with
    | some 'e' | some 'E' => exponentPart n dropped
    | _ => scaled n dropped

def isFractional (next : Option Char) : Bool :=
  next == some '.' || next == some 'e' || next == some 'E'

/-- Reads a number, at its sign or its first digit. -/
def number : Reader Number := do
  let negative ← accept '-'
  match ← takeDigits with
  | [] => failHere
  | '0' :: _ :: _ => throw .malformed
  | digits =>
    let (n, dropped) := absorb 0 digits
    if dropped = 0 ∧ !isFractional (← get).head? then
      if !negative then return .int n
      else if 0 < n ∧ n ≤ 0x8000000000000000 then return .int (-n)
      else return .float (-n.toUInt64.toFloat)
    else
      return .float (signed negative (← fractionPart n dropped))

/-- Skips a number; of a skipped number only the form counts, and a missing digit is a fault of
form even at the end of the text. -/
def skipNumber : Reader Unit := do
  let _ ← accept '-'
  match ← takeDigits with
  | [] => throw .malformed
  | '0' :: _ :: _ => throw .malformed
  | _ =>
    if ← accept '.' then
      if (← takeDigits).isEmpty then throw .malformed
    match (← get).head? with
    | some 'e' | some 'E' =>
      skipOne
      let _ ← do
        if ← accept '+' then pure true else accept '-'
      if (← takeDigits).isEmpty then throw .malformed
    | _ => return

end Reader

end MarketFeed.Json
