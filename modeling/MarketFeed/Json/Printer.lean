import MarketFeed.Json.Basic
import MarketFeed.Floating.Text

/-!
The text of a value: no blanks, members in the order of their keys, and escapes only where the
format demands them.
-/

namespace MarketFeed.Json

def hexDigit (n : Nat) : Char := (Nat.digitChar (n % 16))

/-- The text of one character inside quotes. -/
def escapeChar (c : Char) : List Char :=
  if c = '"' then ['\\', '"']
  else if c = '\\' then ['\\', '\\']
  else if c = '\n' then ['\\', 'n']
  else if c = '\r' then ['\\', 'r']
  else if c = '\t' then ['\\', 't']
  else if c = '\x08' then ['\\', 'b']
  else if c = '\x0c' then ['\\', 'f']
  else if c.toNat < 0x20 then ['\\', 'u', '0', '0', hexDigit (c.toNat / 16), hexDigit c.toNat]
  else [c]

def quoted (s : String) : List Char :=
  '"' :: s.toList.flatMap escapeChar ++ ['"']

def intChars (i : Int) : List Char :=
  if i < 0 then '-' :: Nat.toDigits 10 i.natAbs else Nat.toDigits 10 i.natAbs

mutual

def toChars : Json → List Char
  | null => ['n', 'u', 'l', 'l']
  | bool true => ['t', 'r', 'u', 'e']
  | bool false => ['f', 'a', 'l', 's', 'e']
  | int i => intChars i
  | float x => Floating.document x
  | str s => quoted s
  | arr [] => ['[', ']']
  | arr (item :: rest) => '[' :: toChars item ++ restItems rest
  | obj [] => ['{', '}']
  | obj ((key, value) :: rest) => '{' :: quoted key ++ ':' :: toChars value ++ restMembers rest

def restItems : List Json → List Char
  | [] => [']']
  | item :: rest => ',' :: toChars item ++ restItems rest

def restMembers : List (String × Json) → List Char
  | [] => ['}']
  | (key, value) :: rest => ',' :: quoted key ++ ':' :: toChars value ++ restMembers rest

end

/-- The text of a value. -/
def render (j : Json) : String := String.ofList j.toChars

end MarketFeed.Json
