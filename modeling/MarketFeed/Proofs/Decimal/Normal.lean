import MarketFeed.Proofs.Decimal.Value

/-!
# The shortest way to write a value

A decimal is short if it has no zero at its end behind the point. There is one short decimal for
each value, and it is what normalizing gives.
-/

namespace MarketFeed.Decimal

/-- No digit can be left out at the end. -/
def IsShort (a : Decimal) : Prop := a.scale = 0 ∨ a.coefficient % 10 ≠ 0

variable {a b : Decimal}

lemma value_stripZeros (fuel : Nat) (a : Decimal) : (a.stripZeros fuel).value = a.value := by
  induction fuel generalizing a with
  | zero => rfl
  | succ fuel ih =>
    rw [stripZeros]
    split_ifs with h
    · obtain ⟨hscale, hlast⟩ := h
      obtain ⟨scale, hs⟩ := Nat.exists_eq_succ_of_ne_zero hscale
      obtain ⟨rest, hr⟩ := Int.dvd_of_emod_eq_zero hlast
      have hdiv : a.coefficient / 10 = rest := by omega
      rw [ih, value, value]
      dsimp only
      rw [hdiv, hr, hs, Nat.succ_sub_one, pow_succ]
      push_cast
      field_simp
    · rfl

lemma isShort_stripZeros {fuel : Nat} (h : a.scale ≤ fuel) : (a.stripZeros fuel).IsShort := by
  induction fuel generalizing a with
  | zero => exact Or.inl (Nat.le_zero.mp h)
  | succ fuel ih =>
    rw [stripZeros]
    split_ifs with hzero
    · apply ih
      change a.scale - 1 ≤ fuel
      omega
    · unfold IsShort
      tauto

lemma value_normalize (a : Decimal) : a.normalize.value = a.value := value_stripZeros a.scale a

lemma isShort_normalize (a : Decimal) : a.normalize.IsShort := isShort_stripZeros (Nat.le_refl _)

lemma coefficientAt_eq_iff (a b : Decimal) {scale : Nat} (ha : a.scale ≤ scale)
    (hb : b.scale ≤ scale) : a.coefficientAt scale = b.coefficientAt scale ↔ a.value = b.value := by
  have hunit : (10 : ℚ) ^ scale ≠ 0 := by positivity
  rw [← Int.cast_inj (α := ℚ), a.coefficientAt_eq ha, b.coefficientAt_eq hb]
  exact mul_left_inj' hunit

/-- A short decimal has no fewer places than another one of its value. -/
lemma IsShort.scale_le (hb : b.IsShort) (h : a.value = b.value) : b.scale ≤ a.scale := by
  by_contra hlt
  rw [not_le] at hlt
  have hcoefficient : a.coefficientAt b.scale = b.coefficientAt b.scale :=
    (coefficientAt_eq_iff a b hlt.le le_rfl).mpr h
  obtain ⟨places, hplaces⟩ : ∃ places, b.scale - a.scale = places + 1 :=
    ⟨b.scale - a.scale - 1, by omega⟩
  have hb' : b.coefficient = a.coefficient * Nat.pow 10 places * 10 := by
    rw [coefficientAt, coefficientAt, hplaces, Nat.sub_self] at hcoefficient
    simpa [pow_succ, mul_assoc] using hcoefficient.symm
  rcases hb with hzero | hlast
  · omega
  · omega

lemma IsShort.eq (ha : a.IsShort) (hb : b.IsShort) (h : a.value = b.value) : a = b := by
  have hscale : a.scale = b.scale := le_antisymm (ha.scale_le h.symm) (hb.scale_le h)
  have hcoefficient : a.coefficientAt a.scale = b.coefficientAt a.scale :=
    (coefficientAt_eq_iff a b le_rfl hscale.ge).mpr h
  rw [coefficientAt, coefficientAt, ← hscale, Nat.sub_self] at hcoefficient
  obtain ⟨coefficient, scale, _, _⟩ := a
  obtain ⟨other, otherScale, _, _⟩ := b
  simp_all

/-- Normalizing keeps the value and nothing else of a decimal. -/
theorem normalize_eq_iff (a b : Decimal) : a.normalize = b.normalize ↔ a.value = b.value := by
  constructor
  · intro h
    rw [← value_normalize a, h, value_normalize]
  · intro h
    apply (isShort_normalize a).eq (isShort_normalize b)
    rw [value_normalize, value_normalize, h]

end MarketFeed.Decimal
