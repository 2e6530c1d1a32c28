/-!
Values of the document format that frames, records and settings are written in. The members of an
object are kept in ascending order of their keys, one member to a key, so that two objects of the
same members are the same value.
-/

namespace MarketFeed

/-- A document value. A number is an integer of 64 bits, signed or unsigned, or a double. -/
inductive Json where
  | null
  | bool (b : Bool)
  | int (i : Int)
  | float (x : Float)
  | str (s : String)
  | arr (items : List Json)
  | obj (members : List (String × Json))

namespace Json

instance : Inhabited Json := ⟨null⟩

/-- Puts a member into an ordered list of members; an earlier one of the same key is replaced. -/
def putMember (key : String) (value : Json) : List (String × Json) → List (String × Json)
  | [] => [(key, value)]
  | (k, v) :: rest =>
    if key < k then (key, value) :: (k, v) :: rest
    else if key = k then (key, value) :: rest
    else (k, v) :: putMember key value rest

/-- The object of the given members, the last of each key counting. -/
def ofMembers (members : List (String × Json)) : Json :=
  obj (members.foldl (fun acc m => putMember m.1 m.2 acc) [])

def lookup (key : String) (members : List (String × Json)) : Option Json :=
  (members.find? (·.1 == key)).map (·.2)

/-- The member of an object; `none` for a missing member and for any other value. -/
def get? (key : String) : Json → Option Json
  | obj members => lookup key members
  | _ => none

def isNull : Json → Bool
  | null => true
  | _ => false

def str? : Json → Option String
  | str s => some s
  | _ => none

def bool? : Json → Option Bool
  | bool b => some b
  | _ => none

def int? : Json → Option Int
  | int i => some i
  | _ => none

def arr? : Json → Option (List Json)
  | arr items => some items
  | _ => none

def ofOption {α : Type} (encode : α → Json) : Option α → Json
  | none => null
  | some a => encode a

def ofNat (n : Nat) : Json := int n

mutual

/-- Equality of values; doubles are compared as numbers. -/
def same : Json → Json → Bool
  | null, null => true
  | bool a, bool b => a == b
  | int a, int b => a == b
  | float a, float b => a == b
  | str a, str b => a == b
  | arr a, arr b => sameItems a b
  | obj a, obj b => sameMembers a b
  | _, _ => false

def sameItems : List Json → List Json → Bool
  | [], [] => true
  | a :: as, b :: bs => same a b && sameItems as bs
  | _, _ => false

def sameMembers : List (String × Json) → List (String × Json) → Bool
  | [], [] => true
  | (k, a) :: as, (l, b) :: bs => k == l && same a b && sameMembers as bs
  | _, _ => false

end

instance : BEq Json := ⟨same⟩

end Json

end MarketFeed
