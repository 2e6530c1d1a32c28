import MarketFeed.Json.Reader

/-!
The inside of a quoted text: characters that are not control characters, and escapes. A character
beyond the basic plane may be escaped as a pair of surrogates; half a pair is refused.
-/

namespace MarketFeed.Json

def hexValue? (c : Char) : Option Nat :=
  if c.isDigit then some (c.toNat - '0'.toNat)
  else if 'a' ≤ c ∧ c ≤ 'f' then some (c.toNat - 'a'.toNat + 10)
  else if 'A' ≤ c ∧ c ≤ 'F' then some (c.toNat - 'A'.toNat + 10)
  else none

/-- The four hexadecimal digits at the front of a text. A text of fewer than four bytes has ended
too early, whatever it holds. -/
def fourHex (text : List Char) : Except Fault Nat :=
  let front := text.take 4
  if (String.ofList front).utf8ByteSize < 4 then .error .truncated
  else
    match front.mapM hexValue? with
    | some digits => .ok (digits.foldl (fun n d => n * 16 + d) 0)
    | none => .error .malformed

def isHighSurrogate (n : Nat) : Bool := 0xD800 ≤ n && n ≤ 0xDBFF

def isLowSurrogate (n : Nat) : Bool := 0xDC00 ≤ n && n ≤ 0xDFFF

/-- The second half of a surrogate pair, which has to follow `high` at once. -/
def lowHalf (high : Nat) : List Char → Except Fault (Char × Nat)
  | [] => .error .truncated
  | '\\' :: [] => .error .truncated
  | '\\' :: 'u' :: digits => do
    let low ← fourHex digits
    if isLowSurrogate low then
      return (Char.ofNat (0x10000 + (high - 0xD800) * 0x400 + (low - 0xDC00)), 11)
    else throw .malformed
  | _ => .error .malformed

/-- The character that an escape stands for and the number of characters behind the backslash that
the escape takes. -/
def escape : List Char → Except Fault (Char × Nat)
  | [] => .error .truncated
  | '"' :: _ => .ok ('"', 1)
  | '\\' :: _ => .ok ('\\', 1)
  | '/' :: _ => .ok ('/', 1)
  | 'b' :: _ => .ok ('\x08', 1)
  | 'f' :: _ => .ok ('\x0c', 1)
  | 'n' :: _ => .ok ('\n', 1)
  | 'r' :: _ => .ok ('\r', 1)
  | 't' :: _ => .ok ('\t', 1)
  | 'u' :: rest => do
    let n ← fourHex rest
    if isLowSurrogate n then throw .malformed
    else if isHighSurrogate n then lowHalf n (rest.drop 4)
    else return (Char.ofNat n, 5)
  | _ => .error .malformed

/-- An escape in a text that is skipped: what it stands for is not looked at. -/
def skippedEscape : List Char → Except Fault (Char × Nat)
  | 'u' :: rest => do
    let _ ← fourHex rest
    return ('u', 5)
  | text => escape text

/-- The text up to the closing quote and what follows the quote. The first `skip` characters
belong to an escape that is already read; `front` holds the characters so far, last one first. -/
def quotedTail (escape : List Char → Except Fault (Char × Nat)) :
    (skip : Nat) → (front : List Char) → List Char → Except Fault (List Char × List Char)
  | _, _, [] => .error .truncated
  | skip + 1, front, _ :: rest => quotedTail escape skip front rest
  | 0, front, c :: rest =>
    if c = '"' then .ok (front.reverse, rest)
    else if c = '\\' then
      match escape rest with
      | .ok (d, width) => quotedTail escape width (d :: front) rest
      | .error fault => .error fault
    else if c.toNat < 0x20 then .error .malformed
    else quotedTail escape 0 (c :: front) rest

namespace Reader

/-- Reads a text whose opening quote is already read. -/
def quotedRest : Reader String := do
  let (chars, rest) ← quotedTail escape 0 [] (← get)
  set rest
  return String.ofList chars

/-- Skips a text whose opening quote is already read. -/
def skipQuotedRest : Reader Unit := do
  let (_, rest) ← quotedTail skippedEscape 0 [] (← get)
  set rest

end Reader

end MarketFeed.Json
