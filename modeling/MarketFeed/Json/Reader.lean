/-!
Reading a document text character by character. A reader takes what it reads off the front of the
remaining text; the first fault in reading order ends the reading.
-/

namespace MarketFeed.Json

/-- Why a text cannot be read: it is no document, it is one of another type than asked for, or it
ends too early. -/
inductive Fault where
  | malformed
  | mistyped
  | truncated
deriving DecidableEq, Repr

/-- A step that takes some of the remaining text. -/
abbrev Reader := StateT (List Char) (Except Fault)

/-- The number of containers that may be open at once. -/
def maxNesting : Nat := 127

def isBlank (c : Char) : Bool := c = ' ' || c = '\n' || c = '\t' || c = '\r'

namespace Reader

def skipBlanks : Reader Unit := modify (·.dropWhile isBlank)

/-- The next character that is not blank; it stays unread. -/
def lookAhead : Reader (Option Char) := do
  skipBlanks
  return (← get).head?

def skipOne : Reader Unit := modify List.tail

/-- The fault of an unexpected character, or of the end where a character was expected. -/
def failHere {α : Type} : Reader α := do
  match ← get with
  | [] => throw .truncated
  | _ :: _ => throw .malformed

/-- Reads exactly the given characters. -/
def word : List Char → Reader Unit
  | [] => pure ()
  | c :: expected => do
    match ← get with
    | [] => throw .truncated
    | d :: rest =>
      if c = d then
        set rest
        word expected
      else throw .malformed

def takeDigits : Reader (List Char) := do
  let text ← get
  set (text.dropWhile Char.isDigit)
  return text.takeWhile Char.isDigit

/-- Reads `c` if it comes next. -/
def accept (c : Char) : Reader Bool := do
  match ← get with
  | d :: rest => if c = d then set rest; return true else return false
  | [] => return false

/-- Reads the whole text, which nothing but blanks may follow. -/
def run {α : Type} (reader : Reader α) (text : String) : Except Fault α := do
  let (a, rest) ← StateT.run reader text.toList
  if rest.all isBlank then return a else throw .malformed

end Reader

end MarketFeed.Json
