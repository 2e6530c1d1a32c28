import MarketFeed.Proofs.Decimal.Text
import MarketFeed.Proofs.Json.Reading

/-!
# Numbers in a text

An integer of 64 bits, signed or unsigned, comes back from its digits, and a decimal from its text.
-/

namespace MarketFeed.Json

open Nat (ofDigitChars toDigits)

lemma head?_toDigits {n : Nat} (h : n ≠ 0) : (toDigits 10 n).head? ≠ some '0' := by
  induction n using Nat.strongRecOn with
  | ind n ih =>
    rw [Nat.toDigits_eq_if (by decide)]
    split_ifs with hn
    · interval_cases n
      · exact absurd rfl h
      all_goals decide
    · have hrest := ih (n / 10) (by omega) (by omega)
      cases hd : toDigits 10 (n / 10) with
      | nil => exact absurd hd Nat.toDigits_ne_nil
      | cons c tail =>
        rw [hd] at hrest
        exact hrest

/-- No digit stands behind a zero in front. -/
lemma toDigits_ne_zero_cons (n : Nat) (c : Char) (tail : List Char) :
    toDigits 10 n ≠ '0' :: c :: tail := by
  intro h
  rcases Nat.eq_zero_or_pos n with rfl | hn
  · exact absurd h (by simp [Nat.toDigits_zero])
  · exact head?_toDigits hn.ne' (by rw [h]; rfl)

lemma toDigits_eq_cons (n : Nat) : ∃ c tail, toDigits 10 n = c :: tail ∧ c.isDigit = true := by
  obtain ⟨c, tail, htext⟩ := List.exists_cons_of_ne_nil (Nat.toDigits_ne_nil (n := n) (b := 10))
  have hc : c ∈ toDigits 10 n := htext ▸ List.mem_cons_self ..
  exact ⟨c, tail, htext, Nat.isDigit_of_mem_toDigits (by decide) (by decide) hc⟩

lemma absorb_digits {digits : List Char} {n : Nat} (h : ofDigitChars 10 digits n ≤ wordMax) :
    absorb n digits = (ofDigitChars 10 digits n, 0) := by
  induction digits generalizing n with
  | nil => rfl
  | cons c digits ih =>
    rw [Decimal.ofDigitChars_cons_digitValue] at h ⊢
    have hlonger : n * 10 + digitValue c ≤ wordMax :=
      Nat.le_trans (Decimal.le_ofDigitChars digits _) h
    rw [absorb, if_pos hlonger]
    exact ih h

namespace Reader

variable {α : Type} {before rest : List Char} {c : Char} {i : Int}

lemma run_takeDigits {digits : List Char} (hd : ∀ c ∈ digits, c.isDigit = true) (hr : Ends rest) :
    StateT.run takeDigits (digits ++ rest) = .ok (digits, rest) := by
  have hnone : rest.takeWhile Char.isDigit = [] ∧ rest.dropWhile Char.isDigit = rest := by
    rcases hr with rfl | ⟨c, tail, rfl, rfl | rfl | rfl⟩ <;> exact ⟨rfl, rfl⟩
  rw [takeDigits, run_bind_ok (run_get _), run_bind_ok (run_set ..), StateT.run_pure,
    List.takeWhile_append_of_pos hd, List.dropWhile_append_of_pos hd, hnone.1, hnone.2,
    List.append_nil]
  rfl

lemma isFractional_of_ends (hr : Ends rest) : isFractional rest.head? = false := by
  rcases hr with rfl | ⟨c, tail, rfl, rfl | rfl | rfl⟩ <;> rfl

/-- What the digits behind a sign, or behind none, stand for. -/
lemma run_number {negative : Bool} {n : Nat}
    (ha : StateT.run (accept '-') before = .ok (negative, toDigits 10 n ++ rest))
    (hn : n ≤ wordMax) (hr : Ends rest) : StateT.run number before =
      .ok (if !negative then .int n
        else if 0 < n ∧ n ≤ 0x8000000000000000 then .int (-n)
        else .float (-n.toUInt64.toFloat), rest) := by
  have hdigit : ∀ c ∈ toDigits 10 n, c.isDigit = true := fun c hc =>
    Nat.isDigit_of_mem_toDigits (by decide) (by decide) hc
  have habsorb : absorb 0 (toDigits 10 n) = (n, 0) := by
    rw [absorb_digits (by rwa [Nat.ofDigitChars_ten_toDigits]), Nat.ofDigitChars_ten_toDigits]
  rw [number, run_bind_ok ha, run_bind_ok (run_takeDigits hdigit hr)]
  split
  · rename_i h
    exact absurd h Nat.toDigits_ne_nil
  · rename_i h
    exact absurd h (toDigits_ne_zero_cons n _ _)
  · rw [habsorb]
    dsimp only
    rw [run_bind_ok (run_get _), isFractional_of_ends hr, if_pos ⟨rfl, rfl⟩]
    split_ifs <;> rfl

lemma run_accept_of_ne {d : Char} (h : d ≠ c) (tail : List Char) :
    StateT.run (accept c) (d :: tail) = .ok (false, d :: tail) := by
  rw [accept, run_bind_ok (run_get _)]
  dsimp only
  rw [if_neg h.symm]
  rfl

/-- An integer of 64 bits comes back from its digits. -/
lemma takes_number (hlow : -0x8000000000000000 ≤ i) (hhigh : i ≤ wordMax) :
    Takes number (intChars i) (.int i) := by
  intro rest hr
  have hword : wordMax = 0xFFFFFFFFFFFFFFFF := rfl
  have hn : i.natAbs ≤ wordMax := by omega
  unfold intChars
  split_ifs with hneg
  · have ha : StateT.run (accept '-') ('-' :: toDigits 10 i.natAbs ++ rest) =
        .ok (true, toDigits 10 i.natAbs ++ rest) := rfl
    rw [run_number ha hn hr, if_neg (by simp), if_pos (by omega)]
    congr
    omega
  · have ha : StateT.run (accept '-') (toDigits 10 i.natAbs ++ rest) =
        .ok (false, toDigits 10 i.natAbs ++ rest) := by
      obtain ⟨c, tail, htext, hc⟩ := toDigits_eq_cons i.natAbs
      rw [htext, List.cons_append]
      refine run_accept_of_ne ?_ _
      rintro rfl
      exact absurd hc (by decide)
    rw [run_number ha hn hr, if_pos (by simp)]
    congr
    omega

lemma intChars_eq_cons (i : Int) : ∃ c tail, intChars i = c :: tail ∧ isNumberStart c = true := by
  unfold intChars
  split_ifs
  · exact ⟨'-', _, rfl, rfl⟩
  · obtain ⟨c, tail, htext, hc⟩ := toDigits_eq_cons i.natAbs
    exact ⟨c, tail, htext, by simp [isNumberStart, hc]⟩

/-- A number begins like no other value, and is no bracket, quote or blank. -/
lemma ne_of_isNumberStart (h : isNumberStart c = true) : isBlank c = false ∧
    c ≠ ']' ∧ c ≠ 'n' ∧ c ≠ 't' ∧ c ≠ 'f' ∧ c ≠ '"' := by
  refine ⟨?_, ?_, ?_, ?_, ?_, ?_⟩
  · by_contra hb
    simp only [isBlank, Bool.not_eq_false, Bool.or_eq_true, decide_eq_true_eq] at hb
    rcases hb with ((rfl | rfl) | rfl) | rfl <;> exact absurd h (by decide)
  all_goals
    rintro rfl
    exact absurd h (by decide)

lemma takes_numberOf {select : Number → Option α} {a : α} (hlow : -0x8000000000000000 ≤ i)
    (hhigh : i ≤ wordMax) (hs : select (.int i) = some a) :
    Takes (numberOf select) (intChars i) a := by
  intro rest hr
  obtain ⟨c, tail, h, hc⟩ := intChars_eq_cons i
  have hnumber := takes_number hlow hhigh rest hr
  rw [h, List.cons_append] at hnumber ⊢
  rw [numberOf, run_bind_ok (run_lookAhead (ne_of_isNumberStart hc).1 _)]
  dsimp only
  rw [if_pos hc, run_bind_ok hnumber, hs]
  rfl

/-- An integer of 64 bits with a sign. -/
def IsInteger (i : Int) : Prop := -0x8000000000000000 ≤ i ∧ i < 0x8000000000000000

lemma takes_integer (h : IsInteger i) : Takes integer (intChars i) i := by
  have hword : wordMax = 0xFFFFFFFFFFFFFFFF := rfl
  obtain ⟨hlow, hhigh⟩ := h
  exact takes_numberOf hlow (by omega) (if_pos ⟨hlow, hhigh⟩)

lemma takes_natural {n : Nat} (h : n < 2 ^ 64) : Takes (natural 64) (intChars n) n := by
  have hword : wordMax = 0xFFFFFFFFFFFFFFFF := rfl
  refine takes_numberOf (by omega) (by omega) (if_pos ⟨by omega, ?_⟩)
  rw [Int.toNat_natCast]
  exact h

lemma takes_decimal (a : Decimal) : Takes decimal (quoted a.toText) a := by
  intro rest _
  rw [quoted_append, decimal, run_bind_ok (run_lookAhead isBlank_quote _)]
  refine (run_bind_ok (run_skipOne ..) _).trans ?_
  rw [run_bind_ok (run_quotedRest ..), Decimal.readAny_toText]
  rfl

end Reader

end MarketFeed.Json
