import MarketFeed.Decimal.Arithmetic

/-!
The written form of a decimal: digits with at most one point and an optional sign. Reading accepts
a point at either end and separators after a digit; digits after the point that do not fit are
rounded on the first of them.
-/

namespace MarketFeed.Decimal

/-- Why a text is no decimal. -/
inductive ReadFault where
  | empty
  | unknownCharacter
  | twoPoints
  | leadingSeparator
  | noDigits
  | tooManyDigits
  | roundedPastLimit
deriving DecidableEq, Repr

def ReadFault.message : ReadFault → String
  | empty => "Invalid decimal: empty"
  | unknownCharacter => "Invalid decimal: unknown character"
  | twoPoints => "Invalid decimal: two decimal points"
  | leadingSeparator => "Invalid decimal: must start lead with a number"
  | noDigits => "Invalid decimal: no digits found"
  | tooManyDigits => "Invalid decimal: overflow from too many digits"
  | roundedPastLimit => "Invalid decimal: overflow from mantissa after rounding"

/-- The digits of `n`, padded on the left with zeros to at least `width`. -/
def paddedDigits (n width : Nat) : List Char :=
  let digits := Nat.toDigits 10 n
  List.replicate (width - digits.length) '0' ++ digits

/-- The magnitude `n / 10 ^ scale`, with exactly `scale` digits after the point. -/
def magnitudeText (n scale : Nat) : List Char :=
  let digits := paddedDigits n (scale + 1)
  let whole := digits.take (digits.length - scale)
  if scale = 0 then whole else whole ++ '.' :: digits.drop (digits.length - scale)

def toChars (a : Decimal) : List Char :=
  if a.coefficient < 0 then '-' :: magnitudeText a.coefficient.natAbs a.scale
  else magnitudeText a.coefficient.natAbs a.scale

def toText (a : Decimal) : String := String.ofList a.toChars

instance : ToString Decimal := ⟨toText⟩

def digitValue (c : Char) : Nat := c.toNat - '0'.toNat

def stray (c : Char) : ReadFault :=
  if c = '.' then .twoPoints
  else if c = '_' then .leadingSeparator
  else .unknownCharacter

/-- Ends the reading at the first digits after the point that do not fit: the first of them rounds
the number half up. -/
def roundOn (n scale : Nat) (rest : List Char) : Except ReadFault (Nat × Nat) :=
  match rest.find? fun c => !c.isDigit && c ≠ '_' with
  | some c => .error (stray c)
  | none =>
    if (rest.find? Char.isDigit).any fun c => 5 ≤ digitValue c then
      if n + 1 < limit then .ok (n + 1, scale)
      else if scale = 0 then .error .roundedPastLimit
      else .ok ((n + 5) / 10, scale - 1)
    else .ok (n, scale)

/-- Reads digits, the point and separators onto the coefficient `n` with `scale` digits after the
point. `point` and `digit` say whether a point and a digit came before. -/
def readMagnitude (point digit : Bool) (n scale : Nat) : List Char → Except ReadFault (Nat × Nat)
  | [] => if digit then .ok (n, scale) else .error .noDigits
  | c :: rest =>
    if point ∧ maxScale ≤ scale then roundOn n scale (c :: rest)
    else if c.isDigit then
      let longer := n * 10 + digitValue c
      if longer < limit then readMagnitude point true longer (if point then scale + 1 else 0) rest
      else if point then roundOn n scale (c :: rest)
      else .error .tooManyDigits
    else if c = '.' ∧ !point then readMagnitude true digit n scale rest
    else if c = '_' ∧ digit then readMagnitude point digit n scale rest
    else .error (stray c)

def ofReading (sign : Int) (reading : Nat × Nat) : Except ReadFault Decimal :=
  (ofMagnitude? sign reading.1 reading.2).elim (.error .tooManyDigits) .ok

def readChars : List Char → Except ReadFault Decimal
  | [] => .error .empty
  | '-' :: rest => do ofReading (-1) (← readMagnitude false false 0 0 rest)
  | '+' :: rest => do ofReading 1 (← readMagnitude false false 0 0 rest)
  | text => do ofReading 1 (← readMagnitude false false 0 0 text)

/-- Reads a decimal in positional form. -/
def read (text : String) : Except ReadFault Decimal := readChars text.toList

/-- Reads a natural number below `2 ^ 32`, a plus sign being allowed. -/
def readExponent? (text : List Char) : Option Nat :=
  let digits := match text with
    | '+' :: rest => rest
    | _ => text
  if digits.isEmpty ∨ !digits.all Char.isDigit then none
  else
    let n := digits.foldl (fun n c => n * 10 + digitValue c) 0
    if n < 0x100000000 then some n else none

/-- Moves the point of `a` by `exponent` digits to the left; digits beyond the last place are
rounded half up, on the last one removed. -/
def shiftLeft? (a : Decimal) (exponent : Nat) : Option Decimal :=
  if maxScale < exponent then none
  else if maxScale < a.scale + exponent then
    let removed := a.scale + exponent - maxScale
    let kept := a.coefficient.natAbs / Nat.pow 10 removed
    let last := a.coefficient.natAbs / Nat.pow 10 (removed - 1) % 10
    ofMagnitude? a.coefficient (if 5 ≤ last then kept + 1 else kept) maxScale
  else ofMagnitude? a.coefficient a.coefficient.natAbs (a.scale + exponent)

/-- Moves the point of `a` by `exponent` digits to the right. -/
def shiftRight? (a : Decimal) (exponent : Nat) : Option Decimal :=
  if exponent ≤ a.scale then
    ofMagnitude? a.coefficient a.coefficient.natAbs (a.scale - exponent)
  else if maxScale < exponent then none
  else (round? (a.coefficient * Nat.pow 10 exponent) a.scale).map normalize

/-- Reads a decimal in scientific form: a positional part, `e` or `E`, and an exponent. -/
def readScientific? (text : String) : Option Decimal :=
  let chars := text.toList
  match chars.dropWhile (fun c => c ≠ 'e' ∧ c ≠ 'E') with
  | [] => none
  | _ :: exponent =>
    (readChars (chars.takeWhile (fun c => c ≠ 'e' ∧ c ≠ 'E'))).toOption.bind fun base =>
      match exponent with
      | '-' :: digits => (readExponent? digits).bind base.shiftLeft?
      | digits => (readExponent? digits).bind base.shiftRight?

/-- Reads a decimal in positional or else in scientific form. The fault of a text that is neither
is the one that the positional form shows. -/
def readAny (text : String) : Except ReadFault Decimal :=
  match read text with
  | .ok a => .ok a
  | .error fault => (readScientific? text).elim (.error fault) .ok

end MarketFeed.Decimal
