import MarketFeed.Json.Printer
import MarketFeed.Json.Typed

/-!
Reading records. A record is an object with the fields of its shape by name, or a list with their
values in order. Fields that the shape does not know are skipped; a field given twice is refused
before its second value is read.
-/

namespace MarketFeed.Json

/-- What a missing field means. -/
inductive Presence where
  /-- The record is refused. -/
  | required
  /-- In an object the field keeps its initial value; a list may not end before it. -/
  | optional
  /-- The field keeps its initial value, in an object and at the end of a list. -/
  | defaulted
deriving DecidableEq, Repr

/-- A field of records of type `ρ`: its reader stores what it reads. -/
structure RecordField (ρ : Type) where
  name : String
  presence : Presence
  read : (levels : Nat) → ρ → Reader ρ

namespace RecordField

/-- A field that a record has to have. -/
def required {ρ α : Type} (name : String) (reader : (levels : Nat) → Reader α)
    (store : ρ → α → ρ) : RecordField ρ :=
  ⟨name, .required, fun levels record => return store record (← reader levels)⟩

/-- A field that may be missing or `null`. -/
def optional {ρ α : Type} (name : String) (reader : (levels : Nat) → Reader α)
    (store : ρ → Option α → ρ) : RecordField ρ :=
  ⟨name, .optional, fun levels record => return store record (← Reader.nullable (reader levels))⟩

/-- A field that keeps its initial value where it is missing. -/
def defaulted {ρ α : Type} (name : String) (reader : (levels : Nat) → Reader α)
    (store : ρ → α → ρ) : RecordField ρ :=
  ⟨name, .defaulted, fun levels record => return store record (← reader levels)⟩

end RecordField

/-- How the members of a record are put down. -/
inductive Layout where
  /-- In the order in which the fields are declared, as in a text. -/
  | declared
  /-- In the order of their names, as in a value. -/
  | ascending
deriving DecidableEq, Repr

/-- The object of the given members, no two of which have one name. -/
def Layout.object : Layout → List (String × Json) → Json
  | declared => .obj
  | ascending => .ofMembers

namespace Reader

/-- Goes on to the name of the next member of an object, or leaves the object behind if there is no
other one. -/
def nextMember (first : Bool) : Reader Bool := do
  match ← lookAhead with
  | some '}' => skipOne; return false
  | some '"' => if first then return true else throw .malformed
  | some ',' =>
    if first then throw .malformed
    skipOne
    match ← lookAhead with
    | some '"' => return true
    | _ => failHere
  | _ => failHere

/-- Reads the members of an object up to its closing brace. `seen` holds the names of the fields
read so far. -/
def fieldsByName {ρ : Type} (fields : List (RecordField ρ)) (levels : Nat) :
    (fuel : Nat) → (seen : List String) → (first : Bool) → ρ → Reader (List String × ρ)
  | 0, _, _, _ => throw .truncated
  | fuel + 1, seen, first, record => do
    if !(← nextMember first) then return (seen, record)
    skipOne
    let name ← quotedRest
    let field := fields.find? (·.name == name)
    if field.isSome ∧ seen.contains name then throw .mistyped
    match ← lookAhead with
    | some ':' => skipOne
    | _ => failHere
    match field with
    | some field =>
      fieldsByName fields levels fuel (name :: seen) false (← field.read levels record)
    | none =>
      skip
      fieldsByName fields levels fuel seen false record

/-- Reads the values of a list, one for each field, up to its closing bracket. -/
def fieldsInOrder {ρ : Type} (levels : Nat) :
    List (RecordField ρ) → (first : Bool) → ρ → Reader ρ
  | [], _, record => do
    match ← lookAhead with
    | some ']' => skipOne; return record
    | some ',' => throw .malformed
    | _ => failHere
  | field :: rest, first, record => do
    match ← lookAhead with
    | some ']' =>
      if field.presence = .defaulted then fieldsInOrder levels rest first record
      else throw .mistyped
    | some c =>
      if first then
        fieldsInOrder levels rest false (← field.read levels record)
      else if c = ',' then
        skipOne
        match ← lookAhead with
        | some ']' => throw .malformed
        | none => throw .truncated
        | some _ => fieldsInOrder levels rest false (← field.read levels record)
      else throw .malformed
    | none => throw .truncated

/-- Reads a record, starting from `initial`. -/
def record {ρ : Type} (fields : List (RecordField ρ)) (initial : ρ) : (levels : Nat) → Reader ρ
  | levels => do
    match ← lookAhead with
    | some '{' =>
      match levels with
      | 0 => throw .malformed
      | levels + 1 =>
        skipOne
        let (seen, record) ← fieldsByName fields levels ((← get).length + 1) [] true initial
        if fields.all fun f => f.presence ≠ .required || seen.contains f.name then return record
        else throw .mistyped
    | some '[' =>
      match levels with
      | 0 => throw .malformed
      | levels + 1 =>
        skipOne
        fieldsInOrder levels fields true initial
    | _ => mismatch

end Reader

/-- Takes a value as one of a given type. A value is well formed as it is, so that only its type can
be at fault. -/
def readValue {α : Type} (reader : (levels : Nat) → Reader α) (value : Json) : Except Fault α :=
  (read reader value.render).mapError fun _ => .mistyped

end MarketFeed.Json
