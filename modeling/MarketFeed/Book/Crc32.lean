/-!
The cyclic redundancy check of 32 bits with the reflected polynomial `0xEDB88320`.
-/

namespace MarketFeed.Crc32

def polynomial : UInt32 := 0xEDB88320

/-- Shifts out one bit. -/
def shiftOut (register : UInt32) : UInt32 :=
  if register &&& 1 = 1 then (register >>> 1) ^^^ polynomial else register >>> 1

/-- Takes in a byte, its lowest bit first. -/
def absorb (register : UInt32) (byte : UInt8) : UInt32 :=
  Nat.repeat shiftOut 8 (register ^^^ byte.toUInt32)

def ofBytes (bytes : List UInt8) : UInt32 := ~~~ bytes.foldl absorb 0xFFFFFFFF

def ofText (text : String) : UInt32 := ofBytes text.toUTF8.toList

end MarketFeed.Crc32
