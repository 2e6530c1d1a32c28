import MarketFeed.Decimal.Text
import Mathlib.Tactic.Lemma
import Mathlib.Tactic.SplitIfs

/-!
# The text of a decimal

Digits come back as the number that they were written for, and a decimal comes back from its text
with its scale.
-/

namespace MarketFeed.Decimal

open Nat (ofDigitChars toDigits)

lemma ofDigitChars_cons_digitValue (c : Char) (digits : List Char) (n : Nat) :
    ofDigitChars 10 (c :: digits) n = ofDigitChars 10 digits (n * 10 + digitValue c) := by
  rw [Nat.ofDigitChars_cons, Nat.mul_comm, digitValue]

lemma le_ofDigitChars (digits : List Char) (n : Nat) : n ≤ ofDigitChars 10 digits n := by
  rw [Nat.ofDigitChars_eq_ofDigitChars_zero]
  have hpow : 1 ≤ 10 ^ digits.length := Nat.one_le_pow _ _ (by decide)
  calc n = 1 * n := (Nat.one_mul n).symm
    _ ≤ 10 ^ digits.length * n := Nat.mul_le_mul_right n hpow
    _ ≤ _ := Nat.le_add_right ..

lemma isDigit_of_mem_paddedDigits {n width : Nat} {c : Char} (h : c ∈ paddedDigits n width) :
    c.isDigit = true := by
  rw [paddedDigits, List.mem_append] at h
  rcases h with h | h
  · rw [List.eq_of_mem_replicate h]
    rfl
  · exact Nat.isDigit_of_mem_toDigits (by decide) (by decide) h

lemma ofDigitChars_paddedDigits (n width : Nat) : ofDigitChars 10 (paddedDigits n width) 0 = n := by
  rw [paddedDigits, Nat.ofDigitChars_append, Nat.ofDigitChars_replicate_zero, Nat.mul_zero,
    Nat.ofDigitChars_ten_toDigits]

lemma le_length_paddedDigits (n width : Nat) : width ≤ (paddedDigits n width).length := by
  rw [paddedDigits, List.length_append, List.length_replicate]
  omega

/-! Reading digits. -/

lemma readMagnitude_digits {digits : List Char} (hd : ∀ c ∈ digits, c.isDigit = true)
    {n : Nat} (hn : ofDigitChars 10 digits n < limit) (digit : Bool) (rest : List Char) :
    readMagnitude false digit n 0 (digits ++ rest) =
      readMagnitude false (digit || !digits.isEmpty) (ofDigitChars 10 digits n) 0 rest := by
  induction digits generalizing n digit with
  | nil => simp [Nat.ofDigitChars_nil]
  | cons c digits ih =>
    obtain ⟨hc, hd⟩ := List.forall_mem_cons.mp hd
    rw [ofDigitChars_cons_digitValue] at hn ⊢
    have hlonger : n * 10 + digitValue c < limit := Nat.lt_of_le_of_lt (le_ofDigitChars digits _) hn
    rw [List.cons_append, readMagnitude, if_neg (by simp), if_pos hc, if_pos hlonger]
    simp only [Bool.false_eq_true, if_false]
    rw [ih hd hn]
    simp

lemma readMagnitude_places {digits : List Char} (hd : ∀ c ∈ digits, c.isDigit = true)
    {n scale : Nat} (hn : ofDigitChars 10 digits n < limit)
    (hs : scale + digits.length ≤ maxScale) :
    readMagnitude true true n scale digits =
      .ok (ofDigitChars 10 digits n, scale + digits.length) := by
  induction digits generalizing n scale with
  | nil => rfl
  | cons c digits ih =>
    obtain ⟨hc, hd⟩ := List.forall_mem_cons.mp hd
    rw [List.length_cons] at hs ⊢
    rw [ofDigitChars_cons_digitValue] at hn ⊢
    have hlonger : n * 10 + digitValue c < limit := Nat.lt_of_le_of_lt (le_ofDigitChars digits _) hn
    rw [readMagnitude, if_neg (by omega), if_pos hc, if_pos hlonger, if_pos rfl,
      ih hd hn (by omega)]
    rw [Nat.add_right_comm, Nat.add_assoc]

/-- The digits of a magnitude in front of the point and behind it. -/
lemma magnitudeText_split (n scale : Nat) : ∃ whole places, whole ≠ [] ∧
    (∀ c ∈ whole ++ places, c.isDigit = true) ∧ places.length = scale ∧
    ofDigitChars 10 (whole ++ places) 0 = n ∧
    magnitudeText n scale = if scale = 0 then whole else whole ++ '.' :: places := by
  have hlength : scale + 1 ≤ (paddedDigits n (scale + 1)).length := le_length_paddedDigits ..
  refine ⟨(paddedDigits n (scale + 1)).take ((paddedDigits n (scale + 1)).length - scale),
    (paddedDigits n (scale + 1)).drop ((paddedDigits n (scale + 1)).length - scale),
    ?_, ?_, ?_, ?_, rfl⟩
  · rw [← List.length_pos_iff, List.length_take]
    omega
  · rw [List.take_append_drop]
    exact fun c hc => isDigit_of_mem_paddedDigits hc
  · rw [List.length_drop]
    omega
  · rw [List.take_append_drop, ofDigitChars_paddedDigits]

lemma readMagnitude_magnitudeText {n scale : Nat} (hn : n < limit) (hs : scale ≤ maxScale) :
    readMagnitude false false 0 0 (magnitudeText n scale) = .ok (n, scale) := by
  obtain ⟨whole, places, hsome, hdigits, rfl, hvalue, htext⟩ := magnitudeText_split n scale
  rw [List.forall_mem_append] at hdigits
  rw [Nat.ofDigitChars_append] at hvalue
  have hfront : ofDigitChars 10 whole 0 < limit :=
    Nat.lt_of_le_of_lt (le_ofDigitChars places _) (hvalue ▸ hn)
  have hdigit : (false || !whole.isEmpty) = true := by simpa using hsome
  rw [htext]
  split_ifs with hzero
  · obtain rfl := List.length_eq_zero_iff.mp hzero
    rw [← List.append_nil whole, readMagnitude_digits hdigits.1 hfront, hdigit, ← hvalue]
    rfl
  · rw [readMagnitude_digits hdigits.1 hfront, hdigit, readMagnitude, if_neg (by simp),
      if_neg (by decide), if_pos ⟨rfl, rfl⟩,
      readMagnitude_places hdigits.2 (hvalue ▸ hn) (by omega), hvalue, Nat.zero_add]

lemma magnitudeText_eq_cons (n scale : Nat) : ∃ c tail, magnitudeText n scale = c :: tail ∧
    c.isDigit = true := by
  obtain ⟨whole, places, hsome, hdigits, -, -, htext⟩ := magnitudeText_split n scale
  obtain ⟨c, tail, rfl⟩ := List.exists_cons_of_ne_nil hsome
  have hc : c.isDigit = true := hdigits c (List.mem_append_left _ (List.mem_cons_self ..))
  rw [htext]
  split_ifs
  · exact ⟨c, tail, rfl, hc⟩
  · exact ⟨c, _, rfl, hc⟩

lemma ofReading_magnitude (a : Decimal) {sign : Int} (h : sign < 0 ↔ a.coefficient < 0) :
    ofReading sign (a.coefficient.natAbs, a.scale) = .ok a := by
  have hfits : a.coefficient.natAbs < limit ∧ a.scale ≤ maxScale := ⟨a.natAbs_lt, a.scale_le⟩
  rw [ofReading, ofMagnitude?, dif_pos hfits]
  change Except.ok _ = _
  congr
  split_ifs with hsign
  · have := h.mp hsign
    omega
  · have := mt h.mpr hsign
    omega

lemma readChars_of_isDigit {c : Char} (hc : c.isDigit = true) (tail : List Char) :
    readChars (c :: tail) =
      (readMagnitude false false 0 0 (c :: tail)).bind (ofReading 1) := by
  unfold readChars
  split
  · rename_i h
    exact absurd h (by simp)
  · rename_i h
    obtain ⟨rfl, -⟩ := List.cons.inj h
    exact absurd hc (by decide)
  · rename_i h
    obtain ⟨rfl, -⟩ := List.cons.inj h
    exact absurd hc (by decide)
  · rfl

lemma readChars_toChars (a : Decimal) : readChars a.toChars = .ok a := by
  have hread := readMagnitude_magnitudeText a.natAbs_lt a.scale_le
  rw [toChars]
  split_ifs with hsign
  · rw [readChars, hread]
    exact ofReading_magnitude a (iff_of_true (by decide) hsign)
  · obtain ⟨c, tail, htext, hc⟩ := magnitudeText_eq_cons a.coefficient.natAbs a.scale
    rw [htext, readChars_of_isDigit hc, ← htext, hread]
    exact ofReading_magnitude a (iff_of_false (by decide) hsign)

/-- A decimal comes back from its text, with its scale. -/
lemma readAny_toText (a : Decimal) : readAny a.toText = .ok a := by
  rw [readAny, read, toText, String.toList_ofList, readChars_toChars]

end MarketFeed.Decimal
