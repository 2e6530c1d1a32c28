import MarketFeed.Decimal.Text
import MarketFeed.Floating.Shortest

/-!
Two written forms of a double, both with the shortest digits that read back: the positional form,
which never has an exponent, and the form of a number in a document, which always shows a point or
an exponent.
-/

namespace MarketFeed.Floating

open Decimal (magnitudeText)

/-- The bit of a double that is set when it is negative. -/
def signBit : Nat := 0x8000000000000000

def isNegative (x : Float) : Bool := signBit ≤ x.toBits.toNat

def isZero (x : Float) : Bool := x.toBits.toNat % signBit == 0

def signChars (x : Float) : List Char := if isNegative x then ['-'] else []

def natChars (n : Nat) : List Char := Nat.toDigits 10 n

/-- The digits of `d` with zeros or a point where its exponent puts them. -/
def positionalChars (d : ShortDecimal) : List Char :=
  if 0 ≤ d.exponent then natChars d.digits ++ List.replicate d.exponent.toNat '0'
  else magnitudeText d.digits (-d.exponent).toNat

/-- The positional form: `100`, `0.25`, `-0`. -/
def positional (x : Float) : String :=
  String.ofList <| signChars x ++
    if isZero x then ['0'] else positionalChars (.ofFloat x)

/-- A document writes a number positionally while its point stands after at most this many digits,
or has fewer than this many zeros behind it. -/
def positionalDigits : Int := 16

def positionalZeros : Int := 5

def exponentChars (e : Int) : List Char :=
  'e' :: ((if e < 0 then ['-'] else []) ++ natChars e.natAbs)

def documentChars (d : ShortDecimal) : List Char :=
  let digits := natChars d.digits
  let point := digits.length + d.exponent
  if 0 ≤ d.exponent ∧ point ≤ positionalDigits then positionalChars d ++ ['.', '0']
  else if -positionalZeros < point ∧ point ≤ positionalDigits then positionalChars d
  else
    match digits with
    | [] => []
    | [digit] => digit :: exponentChars (point - 1)
    | digit :: rest => digit :: '.' :: rest ++ exponentChars (point - 1)

/-- The form of a number in a document: `100.0`, `0.25`, `1e300`, `-0.0`. -/
def document (x : Float) : List Char :=
  signChars x ++ if isZero x then ['0', '.', '0'] else documentChars (.ofFloat x)

end MarketFeed.Floating
