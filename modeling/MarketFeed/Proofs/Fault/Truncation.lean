import MarketFeed.Fault.Excerpt
import Mathlib.Tactic.ByContra
import Mathlib.Tactic.Lemma
import Mathlib.Tactic.SplitIfs

/-!
# Messages that are cut

A message that is too long keeps the longest front that fits. The search for its end starts at the
bound and goes down; it meets a character boundary soon, since no character has more than four
bytes.
-/

namespace MarketFeed.Excerpt

variable {text kept : String} {cut : Nat}

/-- `kept` is the longest front of a text that ends on a character boundary and takes at most
`bytes` bytes. -/
structure IsLongestFront (text : String) (bytes : Nat) (kept : String) : Prop where
  front : ∃ rest, text = kept ++ rest
  fits : kept.utf8ByteSize ≤ bytes
  longest : ∀ cut ≤ bytes, String.Pos.Raw.IsValid text ⟨cut⟩ → cut ≤ kept.utf8ByteSize

/-- The search stops at the last boundary that is not behind the byte that it starts from. -/
lemma boundaryFrom_eq_posLE (text : String) (cut : Nat) :
    boundaryFrom text cut = text.posLE ⟨cut⟩ := by
  induction cut with
  | zero =>
    have hstart : String.Pos.Raw.IsValid text ⟨0⟩ := String.Pos.Raw.isValid_zero
    rw [String.posLE_eq_pos hstart]
    rfl
  | succ cut ih =>
    rw [boundaryFrom]
    split_ifs with h
    · exact (String.posLE_eq_pos h).symm
    · rw [ih, eq_comm, String.posLE_eq_iff]
      constructor
      · exact String.Pos.Raw.le_trans String.offset_posLE_le (Nat.le_succ cut)
      · intro other hother
        rw [String.le_posLE_iff]
        have hne : other.offset.byteIdx ≠ cut + 1 := by
          intro heq
          exact h (heq ▸ other.isValid)
        have hle : other.offset.byteIdx ≤ cut + 1 := hother
        exact Nat.le_of_lt_succ (Nat.lt_of_le_of_ne hle hne)

lemma boundaryFrom_le (text : String) (cut : Nat) :
    (boundaryFrom text cut).offset.byteIdx ≤ cut := by
  rw [boundaryFrom_eq_posLE]
  exact String.offset_posLE_le

lemma le_boundaryFrom {boundary : text.Pos} (h : boundary.offset.byteIdx ≤ cut) :
    boundary ≤ boundaryFrom text cut := by
  rw [boundaryFrom_eq_posLE]
  exact String.le_posLE_iff.mpr h

/-- Behind the boundary that is found stands a character of at most four bytes, and it ends behind
the byte that the search started from. -/
lemma lt_boundaryFrom_add_four (h : cut < text.utf8ByteSize) :
    cut < (boundaryFrom text cut).offset.byteIdx + 4 := by
  have hle := boundaryFrom_le text cut
  have hend : boundaryFrom text cut ≠ text.endPos := by
    intro heq
    rw [heq] at hle
    exact absurd hle (Nat.not_le.mpr h)
  have hpast : cut < ((boundaryFrom text cut).next hend).offset.byteIdx := by
    by_contra hback
    have hnext : (boundaryFrom text cut).next hend ≤ boundaryFrom text cut :=
      le_boundaryFrom (Nat.not_lt.mp hback)
    have hlt : boundaryFrom text cut < (boundaryFrom text cut).next hend := String.Pos.lt_next
    exact absurd hlt (Nat.not_lt.mpr hnext)
  rw [String.Pos.offset_next, String.Pos.Raw.byteIdx_add_char] at hpast
  have hsize := Char.utf8Size_le_four ((boundaryFrom text cut).get hend)
  omega

/-- The search takes back at most three bytes, none of which begins a character. -/
lemma boundaryFrom_steps (h : cut < text.utf8ByteSize) : ∃ steps ≤ 3,
    (boundaryFrom text cut).offset.byteIdx + steps = cut ∧
      ∀ back < steps, ¬ String.Pos.Raw.IsValid text ⟨cut - back⟩ := by
  have hle := boundaryFrom_le text cut
  have hlt := lt_boundaryFrom_add_four h
  refine ⟨cut - (boundaryFrom text cut).offset.byteIdx, by omega, by omega, ?_⟩
  intro back hback hvalid
  have hmet : text.pos ⟨cut - back⟩ hvalid ≤ boundaryFrom text cut :=
    le_boundaryFrom (Nat.sub_le cut back)
  have hreached : cut - back ≤ (boundaryFrom text cut).offset.byteIdx := hmet
  omega

lemma isLongestFront_boundaryFrom (text : String) (cut : Nat) :
    IsLongestFront text cut (text.sliceTo (boundaryFrom text cut)).copy where
  front := ⟨_, String.sliceTo_append_sliceFrom.symm⟩
  fits := by
    rw [String.Slice.utf8ByteSize_copy, String.utf8ByteSize_sliceTo]
    exact boundaryFrom_le text cut
  longest := by
    intro lower hle hvalid
    rw [String.Slice.utf8ByteSize_copy, String.utf8ByteSize_sliceTo]
    have hmet : text.pos ⟨lower⟩ hvalid ≤ boundaryFrom text cut := le_boundaryFrom hle
    exact hmet

/-- A message within the bound is kept. Of any other one the longest front that fits is kept, with
the marker behind it; the search for the end of this front takes back at most three bytes. -/
theorem truncate_keeps_longest_front (message : String) :
    (message.utf8ByteSize ≤ maxBytes ∧ truncate message = message) ∨
    (maxBytes < message.utf8ByteSize ∧ ∃ kept,
      truncate message = kept ++ marker ∧
      IsLongestFront message maxBytes kept ∧
      (boundaryFrom message maxBytes).offset.byteIdx = kept.utf8ByteSize ∧
      (∃ steps ≤ 3, kept.utf8ByteSize + steps = maxBytes ∧
        ∀ back < steps, ¬ String.Pos.Raw.IsValid message ⟨maxBytes - back⟩) ∧
      (truncate message).utf8ByteSize ≤ maxBytes + marker.utf8ByteSize) := by
  by_cases h : message.utf8ByteSize ≤ maxBytes
  · exact .inl ⟨h, if_pos h⟩
  · refine .inr ⟨Nat.not_le.mp h, _, if_neg h, isLongestFront_boundaryFrom message maxBytes, ?_⟩
    have hkept : (message.sliceTo (boundaryFrom message maxBytes)).copy.utf8ByteSize =
        (boundaryFrom message maxBytes).offset.byteIdx := by
      rw [String.Slice.utf8ByteSize_copy, String.utf8ByteSize_sliceTo]
    rw [truncate, if_neg h, String.utf8ByteSize_append, hkept]
    refine ⟨rfl, boundaryFrom_steps (Nat.not_le.mp h), ?_⟩
    exact Nat.add_le_add_right (boundaryFrom_le message maxBytes) _

end MarketFeed.Excerpt
