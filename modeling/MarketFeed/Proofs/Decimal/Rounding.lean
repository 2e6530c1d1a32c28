import MarketFeed.Proofs.Decimal.Value
import Mathlib.Tactic.Linarith

/-!
# Sums and differences that are rounded

A sum or a difference of two decimals loses digits only where its coefficient would be too large. So
it stays on the same side of every decimal that has no more places than the two: rounding does not
pass over it.
-/

namespace MarketFeed.Decimal

variable {a b c d : Decimal} {m n unit scale : Nat}

/-! The integer nearest to a fraction. -/

lemma roundHalfEven_nearest (n : Nat) (hunit : 0 < unit) :
    2 * n ≤ (2 * roundHalfEven n unit + 1) * unit ∧
      2 * roundHalfEven n unit * unit ≤ 2 * n + unit := by
  have hdivided : n / unit * unit + n % unit = n := Nat.div_add_mod' n unit
  have hrest : n % unit < unit := Nat.mod_lt n hunit
  rw [roundHalfEven]
  generalize n / unit = quotient at *
  generalize n % unit = rest at *
  split_ifs with hdown
  · have hhalf : 2 * rest ≤ unit := by omega
    constructor <;> nlinarith
  · have hhalf : unit ≤ 2 * rest := by omega
    constructor <;> nlinarith

lemma le_roundHalfEven (hunit : 0 < unit) (h : m * unit ≤ n) : m ≤ roundHalfEven n unit := by
  by_contra hlt
  have hnext : (roundHalfEven n unit + 1) * unit ≤ m * unit := Nat.mul_le_mul_right unit (by omega)
  have hnearest := (roundHalfEven_nearest n hunit).1
  nlinarith

lemma roundHalfEven_le (hunit : 0 < unit) (h : n ≤ m * unit) : roundHalfEven n unit ≤ m := by
  by_contra hlt
  have hnext : (m + 1) * unit ≤ roundHalfEven n unit * unit := Nat.mul_le_mul_right unit (by omega)
  have hnearest := (roundHalfEven_nearest n hunit).2
  nlinarith

lemma roundHalfEven_mul (m : Nat) (hunit : 0 < unit) : roundHalfEven (m * unit) unit = m :=
  le_antisymm (roundHalfEven_le hunit le_rfl) (le_roundHalfEven hunit le_rfl)

/-- The integer of a half is even. -/
lemma even_of_tie (hunit : 0 < unit) (h : 2 * n = (2 * roundHalfEven n unit + 1) * unit) :
    roundHalfEven n unit % 2 = 0 := by
  have hdivided : n / unit * unit + n % unit = n := Nat.div_add_mod' n unit
  have hrest : n % unit < unit := Nat.mod_lt n hunit
  rw [roundHalfEven] at h ⊢
  generalize n / unit = quotient at *
  generalize n % unit = rest at *
  split_ifs at h ⊢ with hdown
  · have htie : 2 * rest = unit := by nlinarith
    omega
  · have hbeyond : 2 * rest = 3 * unit := by nlinarith
    omega

/-- The bound is even, so half a unit below it is rounded up to it. -/
lemma limit_le_roundHalfEven_iff (hunit : 0 < unit) :
    limit ≤ roundHalfEven n unit ↔ 2 * limit * unit ≤ 2 * n + unit := by
  obtain ⟨hupper, hlower⟩ := roundHalfEven_nearest n hunit
  constructor
  · intro hlarge
    have hscaled : limit * unit ≤ roundHalfEven n unit * unit := Nat.mul_le_mul_right unit hlarge
    nlinarith
  · intro hle
    by_contra hlt
    have hbelow : 2 * limit * unit ≤ (2 * roundHalfEven n unit + 2) * unit := by nlinarith
    have hodd : roundHalfEven n unit = limit - 1 := by
      have := Nat.le_of_mul_le_mul_right hbelow hunit
      omega
    have htie : 2 * n = (2 * roundHalfEven n unit + 1) * unit := by
      apply le_antisymm hupper
      rw [hodd]
      simp only [limit] at hle ⊢
      omega
    have heven := even_of_tie hunit htie
    simp only [limit] at hodd
    omega

/-- A coefficient that is too large is still as large as the bound with a zero for its last digit,
since the last digit of the bound is a six. -/
lemma limit_le_of_shortened (hunit : 0 < unit) (h : limit ≤ roundHalfEven n unit) :
    limit ≤ 10 * roundHalfEven n (10 * unit) := by
  have hlower := (roundHalfEven_nearest n hunit).2
  have hupper := (roundHalfEven_nearest n (Nat.mul_pos (by decide : 0 < 10) hunit)).1
  have hlimit : limit * unit ≤ roundHalfEven n unit * unit := Nat.mul_le_mul_right unit h
  have hscaled : 2 * limit * unit ≤ (20 * roundHalfEven n (10 * unit) + 11) * unit := by
    nlinarith
  have hbound := Nat.le_of_mul_le_mul_right hscaled hunit
  simp only [limit] at hbound ⊢
  omega

/-! What is left of a number that is shortened. -/

lemma ofMagnitude?_eq_some {sign : Int} (h : ofMagnitude? sign m scale = some a) :
    a.scale = scale ∧ a.coefficient = if sign < 0 then -(m : Int) else m := by
  rw [ofMagnitude?] at h
  split at h
  · obtain rfl := Option.some.inj h
    exact ⟨rfl, rfl⟩
  · exact absurd h (by simp)

lemma limit_le_of_ofMagnitude? {sign : Int} (hscale : scale ≤ maxScale)
    (h : ofMagnitude? sign m scale = none) : limit ≤ m := by
  rw [ofMagnitude?] at h
  split at h
  · exact absurd h (by simp)
  · omega

/-- `kept` is `number / 10 ^ scale` without its last `drop` digits, each of which had to go. -/
structure Shortened (number : Int) (scale drop : Nat) (kept : Decimal) : Prop where
  scale : kept.scale + drop = scale
  coefficient : kept.coefficient =
    if number < 0 then -(roundHalfEven number.natAbs (10 ^ drop) : Int)
    else roundHalfEven number.natAbs (10 ^ drop)
  forced : ∀ fewer, drop = fewer + 1 → limit ≤ roundHalfEven number.natAbs (10 ^ fewer)

lemma shorten?_eq_some {number : Int} {drop : Nat} (hscale : scale ≤ maxScale)
    (hdrop : drop ≤ scale)
    (hforced : ∀ fewer, drop = fewer + 1 → limit ≤ roundHalfEven number.natAbs (10 ^ fewer))
    (h : shorten? number scale drop = some a) : ∃ total, Shortened number scale total a := by
  -- A further digit goes only where the magnitude before it is too large, since the scale fits.
  induction drop using shorten?.induct number scale with
  | case1 drop kept b hb =>
    rw [shorten?, hb] at h
    obtain rfl := Option.some.inj h
    obtain ⟨hplaces, hcoefficient⟩ := ofMagnitude?_eq_some hb
    exact ⟨drop, by omega, hcoefficient, hforced⟩
  | case2 drop kept hlarge hlt ih =>
    rw [shorten?, hlarge, if_pos hlt] at h
    refine ih hlt ?_ h
    intro fewer hfewer
    obtain rfl : drop = fewer := Nat.succ.inj hfewer
    exact limit_le_of_ofMagnitude? (by omega) hlarge
  | case3 drop kept hlarge hge =>
    rw [shorten?, hlarge, if_neg hge] at h
    exact absurd h (by simp)

lemma round?_eq_some {number : Int} (hscale : scale ≤ maxScale)
    (h : round? number scale = some a) : ∃ drop, Shortened number scale drop a :=
  shorten?_eq_some hscale (Nat.zero_le scale) (by simp) h

lemma shorten?_eq_none {number : Int} {drop : Nat} (hscale : scale ≤ maxScale)
    (hdrop : drop ≤ scale) (h : shorten? number scale drop = none) :
    limit ≤ roundHalfEven number.natAbs (10 ^ scale) := by
  induction drop using shorten?.induct number scale with
  | case1 drop kept b hb =>
    rw [shorten?, hb] at h
    exact absurd h (by simp)
  | case2 drop kept hlarge hlt ih =>
    rw [shorten?, hlarge, if_pos hlt] at h
    exact ih hlt h
  | case3 drop kept hlarge hge =>
    obtain rfl : drop = scale := by omega
    exact limit_le_of_ofMagnitude? (by omega) hlarge

/-- A number that cannot be shortened enough is too large without any places. -/
lemma round?_eq_none {number : Int} (hscale : scale ≤ maxScale) (h : round? number scale = none) :
    limit ≤ roundHalfEven number.natAbs (10 ^ scale) :=
  shorten?_eq_none hscale (Nat.zero_le scale) h

/-! A decimal that has no more places lies on the same side of the number and of what is left. -/

lemma value_le_iff (hb : b.scale ≤ scale) (ha : a.scale ≤ scale) :
    b.value ≤ a.value ↔ b.coefficientAt scale ≤ a.coefficientAt scale := by
  rw [← not_lt, ← not_lt, coefficientAt_lt_iff a b ha hb]

/-- The magnitude that is left does not fall below one that a decimal can have. -/
lemma magnitude_le_kept {drop places : Nat} (hm : m < limit)
    (hforced : ∀ fewer, drop = fewer + 1 → limit ≤ roundHalfEven n (10 ^ fewer))
    (h : m * 10 ^ places ≤ n) : m * 10 ^ places ≤ roundHalfEven n (10 ^ drop) * 10 ^ drop := by
  by_cases hfine : drop ≤ places
  · obtain ⟨more, rfl⟩ := Nat.exists_eq_add_of_le hfine
    have hsplit : m * 10 ^ (drop + more) = m * 10 ^ more * 10 ^ drop := by ring
    rw [hsplit] at h ⊢
    exact Nat.mul_le_mul_right _ (le_roundHalfEven (by positivity) h)
  · obtain ⟨fewer, rfl⟩ : ∃ fewer, drop = fewer + 1 := ⟨drop - 1, by omega⟩
    -- The last digit that went did not fit, so what is left exceeds every decimal of its scale.
    have hlarge : limit ≤ 10 * roundHalfEven n (10 ^ (fewer + 1)) := by
      rw [pow_succ']
      exact limit_le_of_shortened (by positivity) (hforced fewer rfl)
    calc
      m * 10 ^ places ≤ m * 10 ^ fewer := by
        exact Nat.mul_le_mul_left m (Nat.pow_le_pow_right (by decide) (by omega))
      _ ≤ 10 * roundHalfEven n (10 ^ (fewer + 1)) * 10 ^ fewer :=
        Nat.mul_le_mul_right _ (by omega)
      _ = roundHalfEven n (10 ^ (fewer + 1)) * 10 ^ (fewer + 1) := by ring

lemma kept_le_magnitude {drop places : Nat} (hm : m < limit)
    (hforced : ∀ fewer, drop = fewer + 1 → limit ≤ roundHalfEven n (10 ^ fewer))
    (h : n ≤ m * 10 ^ places) : roundHalfEven n (10 ^ drop) * 10 ^ drop ≤ m * 10 ^ places := by
  by_cases hfine : drop ≤ places
  · obtain ⟨more, rfl⟩ := Nat.exists_eq_add_of_le hfine
    have hsplit : m * 10 ^ (drop + more) = m * 10 ^ more * 10 ^ drop := by ring
    rw [hsplit] at h ⊢
    exact Nat.mul_le_mul_right _ (roundHalfEven_le (by positivity) h)
  · obtain ⟨fewer, rfl⟩ : ∃ fewer, drop = fewer + 1 := ⟨drop - 1, by omega⟩
    have hsmall : roundHalfEven n (10 ^ fewer) ≤ m := by
      apply roundHalfEven_le (by positivity)
      exact h.trans (Nat.mul_le_mul_left m (Nat.pow_le_pow_right (by decide) (by omega)))
    have := hforced fewer rfl
    omega

lemma natAbs_coefficientAt (a : Decimal) (scale : Nat) :
    (a.coefficientAt scale).natAbs = a.coefficient.natAbs * 10 ^ (scale - a.scale) := by
  rw [coefficientAt, Int.natAbs_mul]
  rfl

lemma Shortened.coefficientAt {number : Int} {drop : Nat} (h : Shortened number scale drop a) :
    let magnitude := roundHalfEven number.natAbs (10 ^ drop) * 10 ^ drop
    a.coefficientAt scale = if number < 0 then -(magnitude : Int) else magnitude := by
  have hplaces : scale - a.scale = drop := by
    have := h.scale
    omega
  rw [Decimal.coefficientAt, hplaces, h.coefficient]
  split_ifs <;> simp

lemma Shortened.bounds {number : Int} {drop : Nat} (h : Shortened number scale drop a)
    (hb : b.scale ≤ scale) : (b.coefficientAt scale ≤ number → b.value ≤ a.value) ∧
      (number ≤ b.coefficientAt scale → a.value ≤ b.value) := by
  have ha : a.scale ≤ scale := by
    have := h.scale
    omega
  have hleft := h.coefficientAt
  have hlower : (b.coefficientAt scale).natAbs ≤ number.natAbs → (b.coefficientAt scale).natAbs ≤
      roundHalfEven number.natAbs (10 ^ drop) * 10 ^ drop := by
    rw [natAbs_coefficientAt]
    exact magnitude_le_kept b.natAbs_lt h.forced
  have hupper : number.natAbs ≤ (b.coefficientAt scale).natAbs →
      roundHalfEven number.natAbs (10 ^ drop) * 10 ^ drop ≤ (b.coefficientAt scale).natAbs := by
    rw [natAbs_coefficientAt]
    exact kept_le_magnitude b.natAbs_lt h.forced
  rw [value_le_iff hb ha, value_le_iff ha hb]
  constructor
  · intro hle
    split_ifs at hleft <;> omega
  · intro hle
    split_ifs at hleft <;> omega

/-- What is left is off by half a unit of its last place at most. -/
lemma Shortened.near {number : Int} {drop : Nat} (h : Shortened number scale drop a) :
    |a.value - number / 10 ^ scale| ≤ 1 / (2 * 10 ^ a.scale) := by
  have hunit : (0 : ℚ) < 10 ^ drop := by positivity
  have hplaces : (10 : ℚ) ^ scale = 10 ^ a.scale * 10 ^ drop := by
    rw [← h.scale, pow_add]
  obtain ⟨hupper, hlower⟩ := roundHalfEven_nearest number.natAbs (by positivity : 0 < 10 ^ drop)
  have hkept := h.coefficient
  generalize roundHalfEven number.natAbs (10 ^ drop) = kept at *
  have hupper' : 2 * (number.natAbs : ℚ) ≤ (2 * kept + 1) * 10 ^ drop := by exact_mod_cast hupper
  have hlower' : 2 * (kept : ℚ) * 10 ^ drop ≤ 2 * number.natAbs + 10 ^ drop := by
    exact_mod_cast hlower
  have hclose : |(kept : ℚ) - number.natAbs / 10 ^ drop| ≤ 1 / 2 := by
    rw [abs_le, neg_le_sub_iff_le_add, sub_le_iff_le_add, div_le_iff₀ hunit,
      ← sub_le_iff_le_add', le_div_iff₀ hunit]
    constructor <;> linarith
  have hscaled : |((kept : ℚ) - number.natAbs / 10 ^ drop) / 10 ^ a.scale| ≤
      1 / (2 * 10 ^ a.scale) := by
    rw [abs_div, abs_of_pos (by positivity : (0 : ℚ) < 10 ^ a.scale), ← div_div]
    gcongr
  rw [value, hkept, hplaces]
  split_ifs with hsign
  · have hnumber : (number : ℚ) = -number.natAbs := by
      have : number = -number.natAbs := by omega
      exact_mod_cast this
    rw [hnumber, ← abs_neg]
    convert hscaled using 2
    push_cast
    field_simp
    ring
  · have hnumber : (number : ℚ) = number.natAbs := by
      rw [← Int.cast_natCast, Int.natAbs_of_nonneg (not_lt.mp hsign)]
    rw [hnumber]
    convert hscaled using 2
    push_cast
    field_simp

lemma round?_bounds {number : Int} {exact : ℚ} (hexact : (number : ℚ) = exact * 10 ^ scale)
    (hscale : scale ≤ maxScale) (h : round? number scale = some a) (hb : b.scale ≤ scale) :
    (b.value ≤ exact → b.value ≤ a.value) ∧ (exact ≤ b.value → a.value ≤ b.value) := by
  obtain ⟨drop, hshortened⟩ := round?_eq_some hscale h
  obtain ⟨hlower, hupper⟩ := hshortened.bounds hb
  have hunit : (0 : ℚ) < 10 ^ scale := by positivity
  constructor
  · intro hle
    apply hlower
    rw [← Int.cast_le (R := ℚ), b.coefficientAt_eq hb, hexact]
    exact mul_le_mul_of_nonneg_right hle hunit.le
  · intro hle
    apply hupper
    rw [← Int.cast_le (R := ℚ), b.coefficientAt_eq hb, hexact]
    exact mul_le_mul_of_nonneg_right hle hunit.le

/-! Sums and differences. -/

lemma value_neg (a : Decimal) : a.neg.value = -a.value := by
  rw [value, value, neg]
  push_cast
  ring

lemma sub?_eq_add? (a b : Decimal) : a.sub? b = a.add? b.neg := by
  have hzero : b.neg.isZero = b.isZero := by
    rw [Bool.eq_iff_iff, isZero_iff, isZero_iff, value_neg, neg_eq_zero]
  have hcoefficient (scale : Nat) : b.neg.coefficientAt scale = -b.coefficientAt scale :=
    Int.neg_mul _ _
  rw [sub?, add?, hzero]
  dsimp only
  rw [hcoefficient]
  rfl

lemma add?_bounds (h : a.add? b = some c) (hd : d.scale ≤ max a.scale b.scale) :
    (d.value ≤ a.value + b.value → d.value ≤ c.value) ∧
      (a.value + b.value ≤ d.value → c.value ≤ d.value) := by
  rw [add?] at h
  split_ifs at h with ha hb
  · obtain rfl := Option.some.inj h
    rw [(isZero_iff a).mp ha, zero_add]
    exact ⟨id, id⟩
  · obtain rfl := Option.some.inj h
    rw [(isZero_iff b).mp hb, add_zero]
    exact ⟨id, id⟩
  · refine round?_bounds ?_ (max_le a.scale_le b.scale_le) h hd
    rw [Int.cast_add, a.coefficientAt_eq (le_max_left _ _), b.coefficientAt_eq (le_max_right _ _)]
    ring

lemma eq_some_of_elim {overflow : Overflow} {result : Option Decimal}
    (h : result.elim (.error overflow) .ok = (.ok c : Except Overflow Decimal)) :
    result = some c := by
  cases result with
  | none => exact absurd h (by simp)
  | some rounded => exact congrArg some (Except.ok.inj h)

lemma eq_none_of_elim {overflow ended : Overflow} {result : Option Decimal}
    (h : result.elim (.error overflow) .ok = (.error ended : Except Overflow Decimal)) :
    result = none ∧ ended = overflow := by
  cases result with
  | none => exact ⟨rfl, (Except.error.inj h).symm⟩
  | some rounded => exact absurd h (by simp)

lemma overflow_of_add {overflow : Overflow} (h : a.add b = .error overflow) :
    overflow = .addition :=
  (eq_none_of_elim h).2

lemma overflow_of_sub {overflow : Overflow} (h : a.sub b = .error overflow) :
    overflow = .subtraction :=
  (eq_none_of_elim h).2

lemma overflow_of_div {overflow : Overflow} (h : a.div b = .error overflow) :
    overflow = .division :=
  (eq_none_of_elim h).2

/-- A sum lies on the same side as the exact sum of any decimal that has no more places. -/
theorem add_bounds (h : a.add b = .ok c) (hd : d.scale ≤ max a.scale b.scale) :
    (d.value ≤ a.value + b.value → d.value ≤ c.value) ∧
      (a.value + b.value ≤ d.value → c.value ≤ d.value) :=
  add?_bounds (eq_some_of_elim h) hd

/-- A difference lies on the same side as the exact one of any decimal that has no more places. -/
theorem sub_bounds (h : a.sub b = .ok c) (hd : d.scale ≤ max a.scale b.scale) :
    (d.value ≤ a.value - b.value → d.value ≤ c.value) ∧
      (a.value - b.value ≤ d.value → c.value ≤ d.value) := by
  have hsum : a.add? b.neg = some c := (sub?_eq_add? a b).symm.trans (eq_some_of_elim h)
  have hbounds := add?_bounds hsum hd
  rwa [value_neg, ← sub_eq_add_neg] at hbounds

/-- The coefficient that the exact sum has with the places of both numbers. -/
def sumCoefficient (a b : Decimal) : Int :=
  a.coefficientAt (max a.scale b.scale) + b.coefficientAt (max a.scale b.scale)

lemma cast_sumCoefficient (a b : Decimal) :
    (a.sumCoefficient b : ℚ) = (a.value + b.value) * 10 ^ max a.scale b.scale := by
  rw [sumCoefficient, Int.cast_add, a.coefficientAt_eq (le_max_left _ _),
    b.coefficientAt_eq (le_max_right _ _), add_mul]

section Positive

variable (ha : 0 < a.value) (hb : 0 < b.value)

include ha hb

lemma sumCoefficient_pos : 0 < a.sumCoefficient b := by
  rw [← Int.cast_lt (R := ℚ), Int.cast_zero, cast_sumCoefficient]
  positivity

lemma natAbs_sumCoefficient : ((a.sumCoefficient b).natAbs : ℚ) =
    (a.value + b.value) * 10 ^ max a.scale b.scale := by
  rw [← cast_sumCoefficient, ← Int.cast_natCast, Int.natAbs_of_nonneg (sumCoefficient_pos ha hb).le]

lemma add?_of_pos : a.add? b = round? (a.sumCoefficient b) (max a.scale b.scale) := by
  rw [add?, if_neg, if_neg]
  · rfl
  · rw [isZero_iff]
    exact hb.ne'
  · rw [isZero_iff]
    exact ha.ne'

lemma shortened_of_add (h : a.add b = .ok c) :
    ∃ drop, Shortened (a.sumCoefficient b) (max a.scale b.scale) drop c := by
  have hround := eq_some_of_elim h
  rw [add?_of_pos ha hb] at hround
  exact round?_eq_some (max_le a.scale_le b.scale_le) hround

/-- A sum is off by half a unit of its last place at most. -/
lemma add_near (h : a.add b = .ok c) :
    |c.value - (a.value + b.value)| ≤ 1 / (2 * 10 ^ c.scale) := by
  obtain ⟨drop, hshortened⟩ := shortened_of_add ha hb h
  have hnear := hshortened.near
  rwa [cast_sumCoefficient, mul_div_cancel_right₀ _ (by positivity)] at hnear

/-- A sum that needs no more digits than a decimal has is exact. -/
lemma add_exact (h : a.add b = .ok c) (hfits : a.sumCoefficient b < limit) :
    c.value = a.value + b.value := by
  obtain ⟨drop, hshortened⟩ := shortened_of_add ha hb h
  have hpositive := sumCoefficient_pos ha hb
  have hunit : (10 : ℚ) ^ max a.scale b.scale ≠ 0 := by positivity
  rw [← mul_left_inj' hunit, ← cast_sumCoefficient]
  generalize a.sumCoefficient b = number at *
  cases drop with
  | zero =>
    have hmagnitude : roundHalfEven number.natAbs (10 ^ 0) = number.natAbs := by
      have hwhole := roundHalfEven_mul number.natAbs (by decide : 0 < 10 ^ 0)
      rwa [pow_zero, mul_one] at hwhole
    have hcoefficient : c.coefficient = number := by
      rw [hshortened.coefficient, hmagnitude, if_neg hpositive.not_gt]
      exact Int.natAbs_of_nonneg hpositive.le
    rw [value, ← hshortened.scale, hcoefficient, Nat.add_zero]
    exact div_mul_cancel₀ _ (by positivity)
  | succ fewer =>
    have hlarge := hshortened.forced fewer rfl
    have hsmall : roundHalfEven number.natAbs (10 ^ fewer) ≤ number.natAbs :=
      roundHalfEven_le (by positivity) (Nat.le_mul_of_pos_right _ (by positivity))
    omega

/-- A sum overflows as soon as it rounds to the bound of the coefficients. -/
lemma add_overflow_iff :
    a.add b = .error .addition ↔ (limit : ℚ) - 1 / 2 ≤ a.value + b.value := by
  have hunit : (0 : ℚ) < 10 ^ max a.scale b.scale := by positivity
  have hmagnitude := natAbs_sumCoefficient ha hb
  constructor
  · intro h
    obtain ⟨hnone, -⟩ := eq_none_of_elim h
    rw [add?_of_pos ha hb] at hnone
    have hlarge := round?_eq_none (max_le a.scale_le b.scale_le) hnone
    rw [limit_le_roundHalfEven_iff (by positivity)] at hlarge
    have hbound : 2 * (limit : ℚ) * 10 ^ max a.scale b.scale ≤
        2 * ((a.value + b.value) * 10 ^ max a.scale b.scale) + 10 ^ max a.scale b.scale := by
      rw [← hmagnitude]
      exact_mod_cast hlarge
    nlinarith
  · intro h
    cases hadd : a.add b with
    | error overflow => rw [overflow_of_add hadd]
    | ok c =>
      obtain ⟨drop, hshortened⟩ := shortened_of_add ha hb hadd
      have hfits := c.natAbs_lt
      rw [hshortened.coefficient, if_neg (sumCoefficient_pos ha hb).not_gt, Int.natAbs_natCast,
        ← not_le, limit_le_roundHalfEven_iff (by positivity)] at hfits
      have hbound : 2 * limit * 10 ^ max a.scale b.scale ≤
          2 * (a.sumCoefficient b).natAbs + 10 ^ max a.scale b.scale := by
        have hscaled : 2 * (limit : ℚ) * 10 ^ max a.scale b.scale ≤
            2 * ((a.value + b.value) * 10 ^ max a.scale b.scale) + 10 ^ max a.scale b.scale := by
          nlinarith
        rw [← hmagnitude] at hscaled
        exact_mod_cast hscaled
      -- With fewer digits dropped the bound is smaller still.
      have hplaces : 10 ^ drop ≤ 10 ^ max a.scale b.scale :=
        Nat.pow_le_pow_right (by decide) (by have := hshortened.scale; omega)
      simp only [limit] at hfits hbound
      omega

end Positive

/-- A difference of positive numbers does not overflow, since it is not larger than they are. -/
lemma sub_of_le (hb : 0 < b.value) (hle : b.value ≤ a.value) :
    ∃ c, a.sub b = .ok c ∧ 0 ≤ c.value := by
  have ha : 0 < a.value := hb.trans_le hle
  have hround : a.sub? b = round? (a.coefficientAt (max a.scale b.scale) -
      b.coefficientAt (max a.scale b.scale)) (max a.scale b.scale) := by
    rw [sub?, if_neg, if_neg]
    · rw [isZero_iff]
      exact hb.ne'
    · rw [isZero_iff]
      exact ha.ne'
  cases hsub : a.sub? b with
  | none =>
    rw [hround] at hsub
    have hlarge := round?_eq_none (max_le a.scale_le b.scale_le) hsub
    have hordered : b.coefficientAt (max a.scale b.scale) ≤
        a.coefficientAt (max a.scale b.scale) :=
      (value_le_iff (le_max_right _ _) (le_max_left _ _)).mp hle
    have hpositive : 0 < b.coefficientAt (max a.scale b.scale) := by
      rw [← Int.cast_lt (R := ℚ), Int.cast_zero, b.coefficientAt_eq (le_max_right _ _)]
      positivity
    have hmagnitude := natAbs_coefficientAt a (max a.scale b.scale)
    have hscaled : a.coefficient.natAbs * 10 ^ (max a.scale b.scale - a.scale) ≤
        a.coefficient.natAbs * 10 ^ max a.scale b.scale :=
      Nat.mul_le_mul_left _ (Nat.pow_le_pow_right (by decide) (Nat.sub_le _ _))
    have hsmall : roundHalfEven (a.coefficientAt (max a.scale b.scale) -
        b.coefficientAt (max a.scale b.scale)).natAbs (10 ^ max a.scale b.scale) ≤
          a.coefficient.natAbs :=
      roundHalfEven_le (by positivity) (by omega)
    have := a.natAbs_lt
    omega
  | some c =>
    have hok : a.sub b = .ok c := by rw [sub, hsub, Option.elim_some]
    have hzero := (sub_bounds hok (d := zero) (Nat.zero_le _)).1
    rw [value_zero] at hzero
    exact ⟨c, hok, hzero (sub_nonneg.mpr hle)⟩

lemma left_le_add (h : a.add b = .ok c) (hb : 0 ≤ b.value) : a.value ≤ c.value :=
  (add_bounds h (le_max_left _ _)).1 (le_add_of_nonneg_right hb)

lemma right_le_add (h : a.add b = .ok c) (ha : 0 ≤ a.value) : b.value ≤ c.value :=
  (add_bounds h (le_max_right _ _)).1 (le_add_of_nonneg_left ha)

lemma add_nonpos (h : a.add b = .ok c) (ha : a.value ≤ 0) (hb : b.value ≤ 0) : c.value ≤ 0 := by
  have hzero := (add_bounds h (d := zero) (Nat.zero_le _)).2
  rw [value_zero] at hzero
  exact hzero (Left.add_nonpos ha hb)

/-- The smallest positive number with the given places. -/
def tick (scale : Nat) (h : scale ≤ maxScale) : Decimal := ⟨1, scale, by decide, h⟩

lemma tick_le_sub (hscale : scale ≤ maxScale) (ha : a.scale ≤ scale) (hb : b.scale ≤ scale)
    (h : b.value < a.value) : (tick scale hscale).value ≤ a.value - b.value := by
  have hunit : (0 : ℚ) < 10 ^ scale := by positivity
  have hone : (tick scale hscale).value = 1 / 10 ^ scale := by
    rw [value, tick, Int.cast_one]
  have hapart : b.coefficientAt scale + 1 ≤ a.coefficientAt scale :=
    (coefficientAt_lt_iff b a hb ha).mpr h
  rw [← Int.cast_le (R := ℚ), Int.cast_add, b.coefficientAt_eq hb, a.coefficientAt_eq ha,
    Int.cast_one] at hapart
  rw [hone, div_le_iff₀ hunit, sub_mul]
  linarith

/-- A difference of two numbers is positive if the exact one is, however small it is. -/
lemma sub_nonpos_iff (h : a.sub b = .ok c) : c.value ≤ 0 ↔ a.value ≤ b.value := by
  have hscale : max a.scale b.scale ≤ maxScale := max_le a.scale_le b.scale_le
  constructor
  · intro hc
    by_contra hlt
    have htick := tick_le_sub hscale (le_max_left _ _) (le_max_right _ _) (not_le.mp hlt)
    have hpositive : 0 < (tick _ hscale).value := (isPositive_iff _).mp rfl
    have hbelow : (tick _ hscale).value ≤ c.value := (sub_bounds h le_rfl).1 htick
    exact hc.not_gt (hpositive.trans_le hbelow)
  · intro hle
    have hzero := (sub_bounds h (d := zero) (Nat.zero_le _)).2
    rw [value_zero] at hzero
    exact hzero (sub_nonpos_of_le hle)

lemma sum_concat (as : List Decimal) (a : Decimal) : sum (as ++ [a]) = sum as >>= (·.add a) := by
  rw [sum, List.foldlM_append, ← sum]
  congr
  funext total
  exact bind_pure (total.add a)

lemma sum_concat_eq_ok {as : List Decimal} (h : sum (as ++ [a]) = .ok c) :
    ∃ b, sum as = .ok b ∧ b.add a = .ok c := by
  rw [sum_concat] at h
  cases hs : sum as with
  | error overflow =>
    rw [hs] at h
    exact absurd h (by simp [bind, Except.bind])
  | ok b =>
    rw [hs] at h
    exact ⟨b, rfl, h⟩

lemma sum_nonneg {as : List Decimal} (h : sum as = .ok c) (hnonneg : ∀ a ∈ as, 0 ≤ a.value) :
    0 ≤ c.value := by
  induction as using List.reverseRecOn generalizing c with
  | nil =>
    obtain rfl : zero = c := Except.ok.inj h
    exact value_zero.ge
  | append_singleton as a ih =>
    obtain ⟨b, hb, hadd⟩ := sum_concat_eq_ok h
    have hpart : 0 ≤ b.value := ih hb fun x hx => hnonneg x (List.mem_append_left _ hx)
    exact hpart.trans (left_le_add hadd (hnonneg a (by simp)))

/-- A sum of numbers none of which is negative is positive as soon as one of them is. -/
lemma sum_pos_iff {as : List Decimal} (h : sum as = .ok c) (hnonneg : ∀ a ∈ as, 0 ≤ a.value) :
    0 < c.value ↔ ∃ a ∈ as, 0 < a.value := by
  induction as using List.reverseRecOn generalizing c with
  | nil =>
    obtain rfl : zero = c := Except.ok.inj h
    simp
  | append_singleton as a ih =>
    obtain ⟨b, hb, hadd⟩ := sum_concat_eq_ok h
    have hkept : ∀ x ∈ as, 0 ≤ x.value := fun x hx => hnonneg x (List.mem_append_left _ hx)
    have hsum : 0 < c.value ↔ 0 < b.value ∨ 0 < a.value := by
      constructor
      · intro hc
        by_contra hnone
        rw [not_or, not_lt, not_lt] at hnone
        exact hc.not_ge (add_nonpos hadd hnone.1 hnone.2)
      · rintro (hpart | hlast)
        · exact hpart.trans_le (left_le_add hadd (hnonneg a (by simp)))
        · exact hlast.trans_le (right_le_add hadd (sum_nonneg hb hkept))
    rw [hsum, ih hb hkept]
    simp [or_and_right, exists_or]

end MarketFeed.Decimal
