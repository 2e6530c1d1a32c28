import MarketFeed.Fault.Basic
import MarketFeed.Json.Shape

/-!
Scripts are documents that describe records, faults and steps in brief. A member that a script
leaves out and a member that is null are the same, and mean the usual value.
-/

namespace MarketFeed.Script

/-- Why something that a script asks for is not done. -/
inductive Problem where
  | fault (fault : Fault)
  | overflow (overflow : Decimal.Overflow)
  /-- The script does not say what it has to say. -/
  | unclear (what : String)

abbrev Reading := Except Problem

def unclear {α : Type} (what : String) : Reading α := throw (.unclear what)

def unreadable {α : Type} (fault : MessageFault) : Reading α := throw (.fault (.unreadable fault))

def ofOverflow {α : Type} (result : Except Decimal.Overflow α) : Reading α :=
  result.mapError .overflow

def member (script : Json) (key : String) : Json := (script.get? key).getD .null

/-- A flag is on only where it is written as true. -/
def isOn (script : Json) (key : String) : Bool := member script key matches .bool true

/-- A member that may be left out. -/
def optional {α : Type} (read : Json → Reading α) (script : Json) (key : String) :
    Reading (Option α) :=
  match member script key with
  | .null => return none
  | value => some <$> read value

def asText : Json → Reading String
  | .str text => return text
  | _ => unclear "text"

def asNat : Json → Reading Nat
  | .int i => if 0 ≤ i then return i.toNat else unclear "natural number"
  | _ => unclear "natural number"

def asInt : Json → Reading Int
  | .int i => return i
  | _ => unclear "integer"

def asItems : Json → Reading (List Json)
  | .arr items => return items
  | _ => unclear "list"

def asDecimal (value : Json) : Reading Decimal := do
  match Decimal.readAny (← asText value) with
  | .ok a => return a
  | .error fault => unreadable (.decimal fault)

def text (script : Json) (key : String) : Reading String := asText (member script key)

def decimal (script : Json) (key : String) : Reading Decimal := asDecimal (member script key)

def textOr (usual : String) (script : Json) (key : String) : Reading String := do
  return (← optional asText script key).getD usual

def natOr (usual : Nat) (script : Json) (key : String) : Reading Nat := do
  return (← optional asNat script key).getD usual

def intOr (usual : Int) (script : Json) (key : String) : Reading Int := do
  return (← optional asInt script key).getD usual

def items (script : Json) (key : String) : Reading (List Json) := do
  return (← optional asItems script key).getD []

def listOf {α : Type} (read : Json → Reading α) (script : Json) (key : String) :
    Reading (List α) := do
  (← items script key).mapM read

/-- The entry of a table that a text names. -/
def named {α : Type} (table : List (String × α)) (value : Json) : Reading α := do
  match table.lookup (← asText value) with
  | some a => return a
  | none => unreadable (.document .mistyped)

def namedOr {α : Type} (table : List (String × α)) (usual : α) (script : Json) (key : String) :
    Reading α := do
  return (← optional (named table) script key).getD usual

/-- A member that is written out in full. -/
def fullOr {α : Type} (reader : (levels : Nat) → Json.Reader α) (usual : α) (script : Json)
    (key : String) : Reading α := do
  match ← optional pure script key with
  | none => return usual
  | some value =>
    match Json.readValue reader value with
    | .ok a => return a
    | .error fault => unreadable (.document fault)

end MarketFeed.Script
