/-!
Reading the address of a stream: its scheme, and whether its host and its port are well formed. The
rules are those of web addresses.
-/

namespace MarketFeed.Url

/-- Why a text is no address. -/
inductive Flaw where
  | relative
  | emptyHost
  | invalidPort
  | invalidIpv4
  | invalidIpv6
  | invalidDomain
  | invalidCharacter
deriving DecidableEq, Repr

def Flaw.message : Flaw → String
  | relative => "relative URL without a base"
  | emptyHost => "empty host"
  | invalidPort => "invalid port number"
  | invalidIpv4 => "invalid IPv4 address"
  | invalidIpv6 => "invalid IPv6 address"
  | invalidDomain => "invalid international domain name"
  | invalidCharacter => "invalid domain character"

/-- Blanks and control characters, which do not count at either end. -/
def isPadding (c : Char) : Bool := c.toNat ≤ 0x20

/-- Line ends and tabs, which do not count anywhere. -/
def isIgnored (c : Char) : Bool := c = '\t' || c = '\n' || c = '\r'

def trimmed (text : List Char) : List Char :=
  (((text.dropWhile isPadding).reverse.dropWhile isPadding).reverse).filter (!isIgnored ·)

def isSchemeChar (c : Char) : Bool := c.isAlphanum || c = '+' || c = '-' || c = '.'

/-- The scheme, in small letters, and what follows its colon. -/
def splitScheme? (text : List Char) : Option (String × List Char) :=
  if text.head?.any Char.isAlpha then
    match text.dropWhile isSchemeChar with
    | ':' :: rest => some (String.ofList ((text.takeWhile isSchemeChar).map Char.toLower), rest)
    | _ => none
  else none

/-- The schemes of which every address names a host. -/
def hasHost (scheme : String) : Bool := ["ws", "wss", "http", "https", "ftp"].contains scheme

def endsAuthority (special : Bool) (c : Char) : Bool :=
  c = '/' || c = '?' || c = '#' || (special && c = '\\')

/-- What follows the last `@`. -/
def afterUser (authority : List Char) : List Char :=
  (authority.reverse.takeWhile (· ≠ '@')).reverse

/-- The front of an authority up to the first colon outside of brackets, and the rest. -/
def splitHost (bracketed : Bool) : List Char → List Char × List Char
  | [] => ([], [])
  | c :: rest =>
    if c = ':' ∧ !bracketed then ([], c :: rest)
    else
      let (host, port) := splitHost (c = '[' || (bracketed && c ≠ ']')) rest
      (c :: host, port)

def decimalValue (digits : List Char) : Nat :=
  digits.foldl (fun n c => n * 10 + (c.toNat - '0'.toNat)) 0

def isHexDigit (c : Char) : Bool :=
  c.isDigit || ('a' ≤ c && c ≤ 'f') || ('A' ≤ c && c ≤ 'F')

def hexValue (c : Char) : Nat :=
  if c.isDigit then c.toNat - '0'.toNat else c.toLower.toNat - 'a'.toNat + 10

/-- A number of 32 bits: hexadecimal behind `0x`, octal behind another zero, and decimal
otherwise. -/
def addressNumber? (text : List Char) : Option Nat :=
  let (base, digits) :=
    match text with
    | '0' :: 'x' :: rest | '0' :: 'X' :: rest => (16, rest)
    | '0' :: c :: rest => (8, c :: rest)
    | _ => (10, text)
  if text.isEmpty ∨ !digits.all (fun c => isHexDigit c && hexValue c < base) then none
  else some (digits.foldl (fun n c => n * base + hexValue c) 0)

/-- The parts of a host between its points; a point at the end does not count. -/
def labels (host : List Char) : List (List Char) :=
  let parts := host.splitOn '.'
  if 1 < parts.length ∧ parts.getLast? = some [] then parts.dropLast else parts

/-- Whether a host has to be a numeric address, which its last part decides. -/
def endsInNumber (host : List Char) : Bool :=
  (labels host).getLast?.any fun last =>
    (!last.isEmpty && last.all Char.isDigit) || (addressNumber? last).isSome

/-- At most four numbers, of which the last one fills the bytes that the others leave. -/
def isIpv4 (host : List Char) : Bool :=
  match (labels host).mapM addressNumber? with
  | none => false
  | some numbers =>
    numbers.length ≤ 4 && numbers.dropLast.all (· ≤ 255) &&
      numbers.getLast?.all (· < Nat.pow 256 (5 - numbers.length))

/-- A number from 0 to 255 without a leading zero. -/
def isOctet (text : List Char) : Bool :=
  !text.isEmpty && text.all Char.isDigit && (text = ['0'] || text.head? ≠ some '0') &&
    decimalValue text ≤ 255

def isDottedQuad (text : List Char) : Bool :=
  let parts := text.splitOn '.'
  parts.length = 4 && parts.all isOctet

def isHexGroup (text : List Char) : Bool :=
  !text.isEmpty && text.length ≤ 4 && text.all isHexDigit

/-- The number of groups of 16 bits in a list of them, of which the last may be a dotted quad. -/
def groupCount? (quadAllowed : Bool) : List (List Char) → Option Nat
  | [] => some 0
  | [last] =>
    if isHexGroup last then some 1
    else if quadAllowed ∧ isDottedQuad last then some 2
    else none
  | group :: rest => if isHexGroup group then (groupCount? quadAllowed rest).map (· + 1) else none

/-- The groups before and behind the first double colon. -/
def splitGap? : List Char → Option (List Char × List Char)
  | [] => none
  | ':' :: ':' :: rest => some ([], rest)
  | c :: rest => (splitGap? rest).map fun (before, behind) => (c :: before, behind)

def groupsOf (text : List Char) : List (List Char) := if text.isEmpty then [] else text.splitOn ':'

/-- Eight groups, or fewer and a gap. -/
def isIpv6 (text : List Char) : Bool :=
  match splitGap? text with
  | none => groupCount? true (groupsOf text) = some 8
  | some (before, behind) =>
    match groupCount? false (groupsOf before), groupCount? true (groupsOf behind) with
    | some m, some n => m + n ≤ 7
    | _, _ => false

/-- The bytes of a text in which `%` and two hexadecimal digits stand for one byte. -/
def percentDecoded : List Char → List UInt8
  | [] => []
  | '%' :: a :: b :: rest =>
    if isHexDigit a ∧ isHexDigit b then
      (16 * hexValue a + hexValue b).toUInt8 :: percentDecoded rest
    else '%'.toUInt8 :: percentDecoded (a :: b :: rest)
  | c :: rest => c.toString.toUTF8.toList ++ percentDecoded rest

/-- Whether a character may not occur in any host. -/
def isForbidden (c : Char) : Bool :=
  ['\x00', '\t', '\n', '\r', ' ', '#', '/', ':', '<', '>', '?', '@', '[', '\\', ']', '^',
    '|'].contains c

/-- The domain that a host stands for. -/
def domain? (host : List Char) : Option (List Char) :=
  match String.fromUTF8? ⟨(percentDecoded host).toArray⟩ with
  | none => none
  | some text =>
    if text.toList.any fun c => isForbidden c || c.toNat ≤ 0x20 || c = '%' || c = '\x7f' then none
    else some text.toList

def checkDomain (host : List Char) : Except Flaw Unit :=
  match domain? host with
  | none => .error .invalidDomain
  | some domain => if endsInNumber domain ∧ !isIpv4 domain then .error .invalidIpv4 else .ok ()

def checkHost (special : Bool) (host : List Char) : Except Flaw Unit :=
  match host with
  | [] => if special then .error .emptyHost else .ok ()
  | '[' :: rest =>
    if rest.getLast? = some ']' ∧ isIpv6 rest.dropLast then .ok () else .error .invalidIpv6
  | _ =>
    if special then checkDomain host
    else if host.any isForbidden then .error .invalidCharacter
    else .ok ()

/-- A port is empty or a number below `2 ^ 16`. -/
def checkPort (port : List Char) : Except Flaw Unit :=
  if port.all Char.isDigit ∧ decimalValue port < 0x10000 then .ok () else .error .invalidPort

/-- Checks the host and the port that an address names. -/
def checkAuthority (special : Bool) (text : List Char) : Except Flaw Unit := do
  let (host, port) := splitHost false (afterUser (text.takeWhile (!endsAuthority special ·)))
  checkHost special host
  match port with
  | [] => return
  | _ :: port =>
    if host.isEmpty then throw .emptyHost
    checkPort port

/-- The scheme of a well-formed address. -/
def scheme (address : String) : Except Flaw String := do
  match splitScheme? (trimmed address.toList) with
  | none => throw .relative
  | some (scheme, rest) =>
    if hasHost scheme then
      checkAuthority true (rest.dropWhile fun c => c = '/' || c = '\\')
    else if scheme ≠ "file" then
      match rest with
      | '/' :: '/' :: rest => checkAuthority false rest
      | _ => pure ()
    return scheme

end MarketFeed.Url
