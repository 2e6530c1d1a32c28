import MarketFeed.Decimal.Arithmetic
import Mathlib.Algebra.Order.Field.Rat
import Mathlib.Tactic.FieldSimp
import Mathlib.Tactic.Positivity
import Mathlib.Tactic.Ring

/-!
# The value of a decimal

A decimal stands for a rational number. Comparison, equality and the test for zero see this number
alone, whatever scale it is written with.
-/

namespace MarketFeed.Decimal

/-- The number that a decimal stands for. -/
def value (a : Decimal) : ℚ := a.coefficient / 10 ^ a.scale

lemma coefficientAt_eq (a : Decimal) {scale : Nat} (h : a.scale ≤ scale) :
    (a.coefficientAt scale : ℚ) = a.value * 10 ^ scale := by
  have hs : (10 : ℚ) ^ scale = 10 ^ (scale - a.scale) * 10 ^ a.scale := by
    rw [← pow_add, Nat.sub_add_cancel h]
  have hc : (a.coefficientAt scale : ℚ) = a.coefficient * 10 ^ (scale - a.scale) := by
    unfold coefficientAt
    push_cast [Nat.pow_eq]
    rfl
  rw [hc, hs, value]
  field_simp

lemma coefficientAt_lt_iff (a b : Decimal) {scale : Nat} (ha : a.scale ≤ scale)
    (hb : b.scale ≤ scale) : a.coefficientAt scale < b.coefficientAt scale ↔ a.value < b.value := by
  have hp : (0 : ℚ) < 10 ^ scale := by positivity
  rw [← Int.cast_lt (R := ℚ), a.coefficientAt_eq ha, b.coefficientAt_eq hb]
  exact mul_lt_mul_iff_left₀ hp

@[simp] lemma compare_eq_lt (a b : Decimal) : a.compare b = .lt ↔ a.value < b.value := by
  unfold compare
  rw [compare_lt_iff_lt]
  exact coefficientAt_lt_iff a b (le_max_left _ _) (le_max_right _ _)

@[simp] lemma compare_eq_gt (a b : Decimal) : a.compare b = .gt ↔ b.value < a.value := by
  unfold compare
  rw [compare_gt_iff_gt]
  exact coefficientAt_lt_iff b a (le_max_right _ _) (le_max_left _ _)

@[simp] lemma compare_eq_eq (a b : Decimal) : a.compare b = .eq ↔ a.value = b.value := by
  have hlt := compare_eq_lt a b
  have hgt := compare_eq_gt a b
  cases h : a.compare b with
  | lt =>
    rw [h] at hlt
    simpa using (hlt.mp rfl).ne
  | eq =>
    rw [h] at hlt hgt
    simp only [reduceCtorEq, false_iff, not_lt] at hlt hgt
    simpa using le_antisymm hgt hlt
  | gt =>
    rw [h] at hgt
    simpa using (hgt.mp rfl).ne'

@[simp] lemma sameValue_iff (a b : Decimal) : a.sameValue b = true ↔ a.value = b.value := by
  rw [sameValue, beq_iff_eq, compare_eq_eq]

@[simp] lemma isZero_iff (a : Decimal) : a.isZero = true ↔ a.value = 0 := by
  have hp : (10 : ℚ) ^ a.scale ≠ 0 := by positivity
  rw [isZero, beq_iff_eq, value, div_eq_zero_iff, or_iff_left hp, Int.cast_eq_zero]

@[simp] lemma value_zero : zero.value = 0 := by
  simp [value, zero]

@[simp] lemma isPositive_iff (a : Decimal) : a.isPositive = true ↔ 0 < a.value := by
  have hp : (0 : ℚ) < 10 ^ a.scale := by positivity
  rw [isPositive, decide_eq_true_iff, value, div_pos_iff_of_pos_right hp, Int.cast_pos]

@[simp] lemma value_max (a b : Decimal) : (a.max b).value = max a.value b.value := by
  rw [Decimal.max]
  split_ifs with h
  · rw [lt, beq_iff_eq, compare_eq_lt] at h
    exact (max_eq_right h.le).symm
  · rw [lt, beq_iff_eq, compare_eq_lt, not_lt] at h
    exact (max_eq_left h).symm

lemma max_of_value_le {a b : Decimal} (h : b.value ≤ a.value) : a.max b = a := by
  rw [Decimal.max, if_neg]
  rw [lt, beq_iff_eq, compare_eq_lt, not_lt]
  exact h

lemma sub_zero_ok (a : Decimal) : ∃ b, a.sub zero = .ok b ∧ b.value = a.value := by
  by_cases ha : a.isZero = true
  · refine ⟨zero.neg, ?_, ?_⟩
    · rw [sub, sub?, if_pos ha, Option.elim_some]
    · rw [(isZero_iff a).mp ha]
      simp [value, neg, zero]
  · have hz : zero.isZero = true := rfl
    refine ⟨a, ?_, rfl⟩
    rw [sub, sub?, if_neg ha, if_pos hz, Option.elim_some]

end MarketFeed.Decimal
