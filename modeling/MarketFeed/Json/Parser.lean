import MarketFeed.Json.Basic
import MarketFeed.Json.Number
import MarketFeed.Json.Quoted

/-!
Reading values of any type. Containers may be nested to a fixed depth; of equal keys in an object
the last one counts.
-/

namespace MarketFeed.Json

def Number.toJson : Number → Json
  | .int i => .int i
  | .float x => .float x

namespace Reader

/-- The items behind the first one, up to the closing bracket. Every item takes at least a comma,
so that `fuel` above the length of the text is enough. -/
def itemsTail {α : Type} (item : Reader α) : (fuel : Nat) → Reader (List α)
  | 0 => throw .truncated
  | fuel + 1 => do
    match ← lookAhead with
    | some ']' => skipOne; return []
    | some ',' =>
      skipOne
      match ← lookAhead with
      | none => throw .truncated
      | some ']' => throw .malformed
      | some _ => return (← item) :: (← itemsTail item fuel)
    | _ => failHere

/-- The items of a list whose opening bracket comes next. -/
def items {α : Type} (item : Reader α) : Reader (List α) := do
  skipOne
  match ← lookAhead with
  | none => throw .truncated
  | some ']' => skipOne; return []
  | some _ =>
    let first ← item
    return first :: (← itemsTail item ((← get).length + 1))

/-- A key, from its opening quote up to the colon behind it. -/
def key : Reader String := do
  skipOne
  let name ← quotedRest
  match ← lookAhead with
  | some ':' => skipOne; return name
  | _ => failHere

def membersTail {α : Type} (value : Reader α) : (fuel : Nat) → Reader (List (String × α))
  | 0 => throw .truncated
  | fuel + 1 => do
    match ← lookAhead with
    | some '}' => skipOne; return []
    | some ',' =>
      skipOne
      match ← lookAhead with
      | some '"' =>
        let name ← key
        let first ← value
        return (name, first) :: (← membersTail value fuel)
      | _ => failHere
    | _ => failHere

/-- The members of an object whose opening brace comes next. -/
def members {α : Type} (value : Reader α) : Reader (List (String × α)) := do
  skipOne
  match ← lookAhead with
  | some '}' => skipOne; return []
  | some '"' =>
    let name ← key
    let first ← value
    return (name, first) :: (← membersTail value ((← get).length + 1))
  | _ => failHere

def isNumberStart (c : Char) : Bool := c = '-' || c.isDigit

/-- Reads a value; one in brackets or braces is left to `container`. -/
def scalarOr (container : Char → Reader Json) : Reader Json := do
  match ← lookAhead with
  | none => throw .truncated
  | some 'n' => word ['n', 'u', 'l', 'l']; return .null
  | some 't' => word ['t', 'r', 'u', 'e']; return .bool true
  | some 'f' => word ['f', 'a', 'l', 's', 'e']; return .bool false
  | some '"' => skipOne; return .str (← quotedRest)
  | some c =>
    if isNumberStart c then return (← number).toJson
    else if c = '[' ∨ c = '{' then container c
    else throw .malformed

/-- Reads a value of any type that nests at most `levels` containers. -/
def anyValue : (levels : Nat) → Reader Json
  | 0 => scalarOr fun _ => throw .malformed
  | levels + 1 => scalarOr fun c => do
    if c = '[' then return .arr (← items (anyValue levels))
    else return ofMembers (← members (anyValue levels))

end Reader

/-- Reads a text that consists of one value of a given type. -/
def read {α : Type} (reader : (levels : Nat) → Reader α) (text : String) : Except Fault α :=
  (reader maxNesting).run text

/-- Reads a value of any type. -/
def parse (text : String) : Except Fault Json := read Reader.anyValue text

end MarketFeed.Json
