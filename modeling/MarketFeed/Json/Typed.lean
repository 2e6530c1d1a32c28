import MarketFeed.Decimal.Text
import MarketFeed.Floating.Text
import MarketFeed.Json.Parser

/-!
Reading values of a given type. A value of another type is a fault of its own, raised as soon as
its first token is read, so that a text with two faults shows the earlier one.
-/

namespace MarketFeed.Json.Reader

/-- Refuses the value that comes next because of its type. Its first token still has to be well
formed. -/
def mismatch {α : Type} : Reader α := do
  match ← lookAhead with
  | none => throw .truncated
  | some 'n' => word ['n', 'u', 'l', 'l']; throw .mistyped
  | some 't' => word ['t', 'r', 'u', 'e']; throw .mistyped
  | some 'f' => word ['f', 'a', 'l', 's', 'e']; throw .mistyped
  | some '"' =>
    skipOne
    let _ ← quotedRest
    throw .mistyped
  | some c =>
    if isNumberStart c then
      let _ ← number
      throw .mistyped
    else if c = '[' ∨ c = '{' then throw .mistyped
    else throw .malformed

def text : Reader String := do
  match ← lookAhead with
  | some '"' => skipOne; quotedRest
  | _ => mismatch

def boolean : Reader Bool := do
  match ← lookAhead with
  | some 't' => word ['t', 'r', 'u', 'e']; return true
  | some 'f' => word ['f', 'a', 'l', 's', 'e']; return false
  | _ => mismatch

def absent : Reader Unit := do
  match ← lookAhead with
  | some 'n' => word ['n', 'u', 'l', 'l']
  | _ => mismatch

/-- A number that `select` takes. -/
def numberOf {α : Type} (select : Number → Option α) : Reader α := do
  match ← lookAhead with
  | some c =>
    if isNumberStart c then
      match select (← number) with
      | some a => return a
      | none => throw .mistyped
    else mismatch
  | none => throw .truncated

/-- A natural number below `2 ^ bits`. -/
def natural (bits : Nat) : Reader Nat :=
  numberOf fun
    | .int i => if 0 ≤ i ∧ i.toNat < 1 <<< bits then some i.toNat else none
    | .float _ => none

/-- A signed integer of 64 bits. -/
def integer : Reader Int :=
  numberOf fun
    | .int i => if -0x8000000000000000 ≤ i ∧ i < 0x8000000000000000 then some i else none
    | .float _ => none

/-- The double nearest to an integer of 64 bits. -/
def floatOfInt (i : Int) : Float :=
  if i < 0 then -i.natAbs.toUInt64.toFloat else i.toNat.toUInt64.toFloat

/-- A double; an integer is converted. -/
def double : Reader Float :=
  numberOf fun
    | .int i => some (floatOfInt i)
    | .float x => some x

/-- `null`, or a value. -/
def nullable {α : Type} (reader : Reader α) : Reader (Option α) := do
  match ← lookAhead with
  | some 'n' => word ['n', 'u', 'l', 'l']; return none
  | _ => return some (← reader)

/-- The decimal that a number in a document stands for: an integer exactly, a double through its
shortest positional text. -/
def decimalOfNumber : Number → Option Decimal
  | .int i => Decimal.round? i 0
  | .float x => (Decimal.read (Floating.positional x)).toOption

/-- A decimal, written as a text or as a number. -/
def decimal : Reader Decimal := do
  match ← lookAhead with
  | some '"' =>
    skipOne
    match Decimal.readAny (← quotedRest) with
    | .ok a => return a
    | .error _ => throw .mistyped
  | some c => if isNumberStart c then numberOf decimalOfNumber else mismatch
  | none => throw .truncated

/-- A list, if a further container may be opened. -/
def list {α : Type} (item : (levels : Nat) → Reader α) (levels : Nat) : Reader (List α) := do
  match ← lookAhead with
  | some '[' =>
    match levels with
    | 0 => throw .malformed
    | levels + 1 => items (item levels)
  | _ => mismatch

/-- The entry of a table that a text names. -/
def nameIn {α : Type} (table : List (String × α)) : Reader α := do
  match table.lookup (← text) with
  | some a => return a
  | none => throw .mistyped

/-- A name out of a table, alone or as the only key of an object with a null value. -/
def choice {α : Type} (table : List (String × α)) (levels : Nat) : Reader α := do
  match ← lookAhead with
  | some '"' => nameIn table
  | some '{' =>
    if levels = 0 then throw .malformed
    skipOne
    let a ← nameIn table
    match ← lookAhead with
    | some ':' =>
      skipOne
      absent
      match ← lookAhead with
      | some '}' => skipOne; return a
      | _ => failHere
    | _ => failHere
  | _ => failHere

mutual

/-- Skips a value of any type and depth. Every call takes at least one character, so that `fuel`
above the length of the text is enough. -/
def skipValue : (fuel : Nat) → Reader Unit
  | 0 => throw .truncated
  | fuel + 1 => do
    match ← lookAhead with
    | some 'n' => word ['n', 'u', 'l', 'l']
    | some 't' => word ['t', 'r', 'u', 'e']
    | some 'f' => word ['f', 'a', 'l', 's', 'e']
    | some '"' => skipOne; skipQuotedRest
    | some '[' =>
      skipOne
      match ← lookAhead with
      | some ']' => skipOne
      | _ =>
        skipValue fuel
        skipItems fuel
    | some '{' =>
      skipOne
      match ← lookAhead with
      | some '}' => skipOne
      | _ =>
        skipMember fuel
        skipMembers fuel
    | some c => if isNumberStart c then skipNumber else throw .malformed
    | none => throw .truncated

def skipItems : (fuel : Nat) → Reader Unit
  | 0 => throw .truncated
  | fuel + 1 => do
    match ← lookAhead with
    | some ']' => skipOne
    | some ',' =>
      skipOne
      skipValue fuel
      skipItems fuel
    | _ => failHere

def skipMember : (fuel : Nat) → Reader Unit
  | 0 => throw .truncated
  | fuel + 1 => do
    match ← lookAhead with
    | some '"' =>
      skipOne
      skipQuotedRest
      match ← lookAhead with
      | some ':' => skipOne; skipValue fuel
      | _ => failHere
    | _ => failHere

def skipMembers : (fuel : Nat) → Reader Unit
  | 0 => throw .truncated
  | fuel + 1 => do
    match ← lookAhead with
    | some '}' => skipOne
    | some ',' =>
      skipOne
      skipMember fuel
      skipMembers fuel
    | _ => failHere

end

/-- Skips the value that comes next. -/
def skip : Reader Unit := do
  skipValue (3 * (← get).length + 1)

end MarketFeed.Json.Reader
