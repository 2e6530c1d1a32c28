/-!
Bounding the length of a message: a text of too many bytes is cut at the last character boundary
within the bound, and the cut is marked.
-/

namespace MarketFeed.Excerpt

/-- The longest message, in bytes, that is kept whole. -/
def maxBytes : Nat := 1024

def marker : String := "... (truncated)"

/-- The first character boundary of a text that a search from byte `cut` downwards meets. -/
def boundaryFrom (text : String) : (cut : Nat) → text.Pos
  | 0 => text.startPos
  | cut + 1 =>
    if h : String.Pos.Raw.IsValid text ⟨cut + 1⟩ then text.pos ⟨cut + 1⟩ h
    else boundaryFrom text cut

/-- The message, or what stands before the last boundary within the bound, and the marker. -/
def truncate (message : String) : String :=
  if message.utf8ByteSize ≤ maxBytes then message
  else (message.sliceTo (boundaryFrom message maxBytes)).copy ++ marker

end MarketFeed.Excerpt
