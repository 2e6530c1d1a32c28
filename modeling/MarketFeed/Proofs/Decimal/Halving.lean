import MarketFeed.Proofs.Decimal.Rounding

/-!
# Halves

Half of a decimal is exact if there is room for one more digit. Where there is none, the last digit
is rounded, and then no decimal lies between the exact half and the rounded one.
-/

namespace MarketFeed.Decimal

variable {a b half : Decimal} {m n unit scale spare most : Nat}

/-! Trailing zeros do not count. -/

lemma value_eq_of_coefficient {digits : Nat} (hs : b.scale + digits = a.scale)
    (hc : b.coefficient * 10 ^ digits = a.coefficient) : b.value = a.value := by
  rw [value, value, ← hs, ← hc, pow_add]
  push_cast
  field_simp

lemma value_dropZeros (digits : Nat) (a : Decimal) : (a.dropZeros digits).value = a.value := by
  rw [dropZeros]
  split_ifs with h
  · obtain ⟨hscale, hzeros⟩ := h
    cases hb : ofMagnitude? a.coefficient (a.coefficient.natAbs / Nat.pow 10 digits)
        (a.scale - digits) with
    | none => rfl
    | some shorter =>
      obtain ⟨hs, hc⟩ := ofMagnitude?_eq_some hb
      have hplaces : shorter.scale + digits = a.scale := by omega
      rw [Option.getD_some]
      apply value_eq_of_coefficient hplaces
      have hdvd : Nat.pow 10 digits ∣ a.coefficient.natAbs :=
        Int.natCast_dvd.mp (Int.dvd_of_emod_eq_zero hzeros)
      have hmagnitude : a.coefficient.natAbs / Nat.pow 10 digits * 10 ^ digits =
          a.coefficient.natAbs :=
        Nat.div_mul_cancel hdvd
      generalize a.coefficient.natAbs / Nat.pow 10 digits = kept at hc hmagnitude
      have hcast : (kept : Int) * 10 ^ digits = a.coefficient.natAbs := by
        rw [← hmagnitude]
        push_cast
        rfl
      rw [hc]
      split_ifs
      · rw [Int.neg_mul, hcast]
        omega
      · rw [hcast]
        omega
  · rfl

lemma value_dropEights (fuel : Nat) (a : Decimal) : (a.dropEights fuel).value = a.value := by
  induction fuel generalizing a with
  | zero => rfl
  | succ fuel ih =>
    rw [dropEights]
    split_ifs
    · rw [ih, value_dropZeros]
    · rfl

lemma value_trim (a : Decimal) : a.trim.value = a.value := by
  rw [trim, value_dropZeros, value_dropZeros, value_dropZeros, value_dropEights]

/-! Long division by two. -/

lemma nearest?_of_lt {d : Nat} (hscale : scale ≤ maxScale) (h : roundHalfEven n d < limit) :
    ∃ q, nearest? 1 n d scale = some q ∧ q.value = roundHalfEven n d / 10 ^ scale := by
  rw [nearest?, ofMagnitude?, dif_pos ⟨h, hscale⟩]
  exact ⟨_, rfl, by simp [value]⟩

lemma nearest?_of_le {d : Nat} (hscale : scale + 1 ≤ maxScale) (hlarge : limit ≤ roundHalfEven n d)
    (h : roundHalfEven n (10 * d) < limit) : ∃ q, nearest? 1 n d (scale + 1) = some q ∧
      q.value = roundHalfEven n (10 * d) / 10 ^ scale := by
  have hnone : ofMagnitude? 1 (roundHalfEven n d) (scale + 1) = none := by
    rw [ofMagnitude?, dif_neg (by omega)]
  rw [nearest?, hnone]
  dsimp only
  rw [if_neg (Nat.succ_ne_zero scale), Nat.add_sub_cancel, ofMagnitude?, dif_pos ⟨h, by omega⟩]
  exact ⟨_, rfl, by simp [value]⟩

lemma room_pos_or (q most : Nat) :
    room q most = 0 ∧ (most = 0 ∨ limit ≤ q * 10) ∨
      0 < room q most ∧ q * 10 ^ room q most < limit := by
  induction most with
  | zero => exact .inl ⟨rfl, .inl rfl⟩
  | succ most ih =>
    rw [room]
    split_ifs with hfits
    · exact .inr ⟨Nat.succ_pos most, hfits⟩
    · rcases ih with ⟨hnone, hfull⟩ | hsome
      · refine .inl ⟨hnone, .inr ?_⟩
        rcases hfull with rfl | hfull
        · simpa using hfits
        · exact hfull
      · exact .inr hsome

/-- An even number is halved in one step. -/
lemma divideFrom?_double (hspare : spare ≤ maxScale) (h : m < limit) :
    ∃ q, divideFrom? 1 (m * 2) 2 spare = some q ∧ q.value = m / 10 ^ (maxScale - spare) := by
  have hround : roundHalfEven (m * 2) 2 = m := roundHalfEven_mul m (by decide)
  obtain ⟨q, hq, hvalue⟩ := nearest?_of_lt (n := m * 2) (d := 2) (Nat.sub_le maxScale spare)
    (by rwa [hround])
  have hstep : stepSize (m * 2) 2 spare = 0 := by
    rw [stepSize, if_pos (Nat.mul_mod_left m 2), Nat.sub_eq_zero_of_le hspare, Nat.min_zero]
  refine ⟨q, ?_, by rw [hvalue, hround]⟩
  rw [divideFrom?, hstep]
  simpa [hspare] using hq

/-- A quotient that is too long by a digit ends in a zero. -/
lemma nearest?_of_long {fewer : Nat} (hscale : scale + 1 ≤ maxScale) (hfewer : fewer ≤ 7)
    (hfits : m * 10 ^ (fewer + 2) < limit) (hlong : limit ≤ (m * 2 + 1) * 5 * 10 ^ (fewer + 1)) :
    ∃ q, nearest? 1 ((m * 2 + 1) * 5 * 10 ^ (fewer + 1) * 2) 2 (scale + 1) = some q ∧
      q.value = (m * 2 + 1) * 5 * 10 ^ fewer / 10 ^ scale := by
  have hlarge : limit ≤ roundHalfEven ((m * 2 + 1) * 5 * 10 ^ (fewer + 1) * 2) 2 := by
    rwa [roundHalfEven_mul _ (by decide)]
  have hround : roundHalfEven ((m * 2 + 1) * 5 * 10 ^ (fewer + 1) * 2) (10 * 2) =
      (m * 2 + 1) * 5 * 10 ^ fewer := by
    have htwenty : (m * 2 + 1) * 5 * 10 ^ (fewer + 1) * 2 =
        (m * 2 + 1) * 5 * 10 ^ fewer * (10 * 2) := by
      ring
    rw [htwenty]
    exact roundHalfEven_mul _ (by decide)
  have hkept : (m * 2 + 1) * 5 * 10 ^ fewer < limit := by
    have hsmall : 10 ^ fewer ≤ 10 ^ 7 := Nat.pow_le_pow_right (by decide) hfewer
    have hhundred : m * 10 ^ (fewer + 2) = 100 * (m * 10 ^ fewer) := by ring
    have hsplit : (m * 2 + 1) * 5 * 10 ^ fewer = 10 * (m * 10 ^ fewer) + 5 * 10 ^ fewer := by ring
    rw [hhundred] at hfits
    rw [hsplit]
    simp only [limit] at hfits ⊢
    omega
  obtain ⟨q, hq, hvalue⟩ := nearest?_of_le hscale hlarge (by rwa [hround])
  refine ⟨q, hq, ?_⟩
  rw [hvalue, hround]
  push_cast
  rfl

lemma stepSize_double_succ (m spare : Nat) :
    stepSize (m * 2 + 1) 2 spare = room m (min quotientStep spare) := by
  have hhalf : (m * 2 + 1) / 2 = m := by omega
  rw [stepSize, if_neg (by omega), hhalf]

/-- An odd number is halved exactly if there is room for a digit more. -/
lemma divideFrom?_of_room {more : Nat} (hspare : spare ≤ maxScale)
    (hroom : room m (min quotientStep spare) = more + 1) (hfits : m * 10 ^ (more + 1) < limit) :
    ∃ q, divideFrom? 1 (m * 2 + 1) 2 spare = some q ∧
      2 * q.value = (m * 2 + 1) / 10 ^ (maxScale - spare) := by
  have hle : more + 1 ≤ min quotientStep spare := by
    rw [← hroom]
    exact room_le m _
  have hscale : maxScale - (spare - (more + 1)) = maxScale - spare + (more + 1) := by omega
  have hlonger : (m * 2 + 1) * Nat.pow 10 (more + 1) = (m * 2 + 1) * 5 * 10 ^ more * 2 := by
    rw [Nat.pow_eq, pow_succ]
    ring
  rw [divideFrom?, stepSize_double_succ, hroom, if_neg (Nat.succ_ne_zero more), hlonger,
    Nat.mul_div_cancel _ (by decide : 0 < 2)]
  by_cases hlt : (m * 2 + 1) * 5 * 10 ^ more < limit
  · have hrest : spare - (more + 1) ≤ maxScale := by omega
    obtain ⟨q, hq, hvalue⟩ := divideFrom?_double hrest hlt
    refine ⟨q, by rw [if_pos hlt, hq], ?_⟩
    rw [hvalue, hscale, pow_add, pow_succ]
    push_cast
    field_simp
    ring
  · -- The bound ends in a six, so a single digit that fits leaves room for the half.
    obtain ⟨fewer, rfl⟩ : ∃ fewer, more = fewer + 1 := by
      cases more with
      | zero =>
        simp only [limit] at hfits hlt
        omega
      | succ fewer => exact ⟨fewer, rfl⟩
    rw [quotientStep] at hle
    have hplaces : maxScale - spare + (fewer + 1) + 1 ≤ maxScale := by omega
    obtain ⟨q, hq, hvalue⟩ := nearest?_of_long hplaces (by omega) hfits (not_lt.mp hlt)
    refine ⟨q, ?_, ?_⟩
    · rw [if_neg hlt, if_pos (by omega), hscale]
      exact hq
    · rw [hvalue, pow_add, pow_succ]
      field_simp
      ring

/-- Where there is no room for a digit more, the half of an odd number is rounded. -/
lemma divideFrom?_double_succ (hspare : spare ≤ maxScale) (h : m * 2 + 1 < limit) :
    ∃ q, divideFrom? 1 (m * 2 + 1) 2 spare = some q ∧
      (2 * q.value = (m * 2 + 1) / 10 ^ (maxScale - spare) ∨
        q.value = roundHalfEven (m * 2 + 1) 2 / 10 ^ (maxScale - spare) ∧
          (spare = 0 ∨ limit ≤ m * 10)) := by
  rcases room_pos_or m (min quotientStep spare) with ⟨hnone, hfull⟩ | ⟨hpos, hfits⟩
  · have hround : roundHalfEven (m * 2 + 1) 2 ≤ m + 1 := roundHalfEven_le (by decide) (by omega)
    obtain ⟨q, hq, hvalue⟩ := nearest?_of_lt (n := m * 2 + 1) (d := 2) (Nat.sub_le maxScale spare)
      (by omega)
    refine ⟨q, ?_, .inr ⟨hvalue, ?_⟩⟩
    · rw [divideFrom?, stepSize_double_succ, hnone]
      simpa [hspare] using hq
    · rw [quotientStep] at hfull
      omega
  · obtain ⟨more, hmore⟩ : ∃ more, room m (min quotientStep spare) = more + 1 :=
      ⟨_, (Nat.succ_pred_eq_of_pos hpos).symm⟩
    rw [hmore] at hfits
    obtain ⟨q, hq, hvalue⟩ := divideFrom?_of_room hspare hmore hfits
    exact ⟨q, hq, .inl hvalue⟩

/-- `half` is half of a positive number. Where the digit that it takes has no room, it is the
nearest number with the same places. -/
def Halves (a half : Decimal) : Prop :=
  2 * half.value = a.value ∨
    half.value = roundHalfEven a.coefficient.natAbs 2 / 10 ^ a.scale ∧
      (a.scale = maxScale ∨ limit ≤ a.coefficient.natAbs / 2 * 10)

lemma value_of_pos (ha : 0 < a.value) : a.value = a.coefficient.natAbs / 10 ^ a.scale := by
  have hpositive : a.coefficient.natAbs = a.coefficient := by
    have hsign : 0 < a.coefficient := by simpa [isPositive] using (isPositive_iff a).mpr ha
    omega
  rw [value, ← Int.cast_natCast, hpositive]

/-- Division by two does not overflow. -/
lemma div_two (ha : 0 < a.value) : ∃ half, a.div two = .ok half ∧ Halves a half := by
  have hsign : 0 < a.coefficient := by simpa [isPositive] using (isPositive_iff a).mpr ha
  have hvalue := value_of_pos ha
  have hlt := a.natAbs_lt
  have hscale := a.scale_le
  have hplaces : maxScale - (maxScale - a.scale) = a.scale := by omega
  have hspare : maxScale + two.scale - a.scale = maxScale - a.scale := rfl
  have hone : a.coefficient.sign * two.coefficient.sign = 1 := by
    rw [Int.sign_eq_one_of_pos hsign]
    rfl
  have htwo : two.coefficient.natAbs = 2 := rfl
  rw [div, div?, hspare, hone, htwo, if_neg (by decide), if_neg (by omega)]
  unfold Halves
  generalize a.coefficient.natAbs = n at *
  obtain ⟨m, rfl | rfl⟩ := Nat.even_or_odd' n
  · obtain ⟨half, hhalf, hv⟩ := divideFrom?_double (m := m) (Nat.sub_le maxScale a.scale) (by omega)
    refine ⟨half, ?_, .inl ?_⟩
    · rw [if_pos (by omega), mul_comm, hhalf]
      rfl
    · rw [hv, hplaces, hvalue]
      push_cast
      ring
  · obtain ⟨half, hhalf, hv⟩ := divideFrom?_double_succ (m := m) (Nat.sub_le maxScale a.scale)
      (by omega)
    refine ⟨half.trim, ?_, ?_⟩
    · rw [if_neg (by omega), mul_comm, hhalf]
      rfl
    · rw [value_trim]
      rcases hv with hexact | ⟨hround, hfull⟩
      · refine .inl ?_
        rw [hexact, hplaces, hvalue]
        push_cast
        ring
      · refine .inr ⟨?_, ?_⟩
        · rw [hround, hplaces, mul_comm]
        · omega

/-- A half that is not exact is off by half a unit of the last place. -/
lemma Halves.cases (h : Halves a half) (ha : 0 < a.value) : 2 * half.value = a.value ∨
    2 * half.value = a.value + 1 / 10 ^ a.scale ∨ 2 * half.value = a.value - 1 / 10 ^ a.scale := by
  rcases h with hexact | ⟨hround, -⟩
  · exact .inl hexact
  · have hnearest := roundHalfEven_nearest a.coefficient.natAbs (by decide : 0 < 2)
    rw [hround, value_of_pos ha]
    generalize a.coefficient.natAbs = n at *
    generalize roundHalfEven n 2 = kept at *
    have hkept : 2 * kept = n ∨ 2 * kept = n + 1 ∨ 2 * kept + 1 = n := by omega
    rcases hkept with rfl | hup | rfl
    · left
      push_cast
      ring
    · have hup' : (2 : ℚ) * kept = n + 1 := by exact_mod_cast hup
      right; left
      rw [← add_div, ← hup']
      ring
    · right; right
      push_cast
      ring

/-- A decimal of more places is smaller than a number whose half has no room for a digit more. -/
lemma value_lt_of_full (hfull : limit ≤ m * 10) (hd : scale < b.scale) :
    b.value < m / 10 ^ scale := by
  have hcoefficient : (b.coefficient : ℚ) < m * 10 := by
    have hlt : b.coefficient < (m * 10 : Nat) := by
      have := b.natAbs_lt
      omega
    exact_mod_cast hlt
  obtain ⟨more, hmore⟩ := Nat.exists_eq_add_of_lt hd
  have hplaces : (10 : ℚ) ^ b.scale = 10 ^ scale * 10 * 10 ^ more := by
    rw [hmore]
    ring
  have hunit : (0 : ℚ) < 10 ^ scale := by positivity
  have hmany : (1 : ℚ) ≤ 10 ^ more := one_le_pow₀ (by norm_num)
  rw [value, hplaces, div_lt_div_iff₀ (by positivity) hunit]
  calc
    (b.coefficient : ℚ) * 10 ^ scale < m * 10 * 10 ^ scale := by gcongr
    _ = m * (10 ^ scale * 10 * 1) := by ring
    _ ≤ m * (10 ^ scale * 10 * 10 ^ more) := by gcongr

lemma rounded_half_bounds_of_le (hb : b.scale ≤ scale) :
    (2 * b.value ≤ n / 10 ^ scale → b.value ≤ roundHalfEven n 2 / 10 ^ scale) ∧
      (n / 10 ^ scale ≤ 2 * b.value → roundHalfEven n 2 / 10 ^ scale ≤ b.value) := by
  have hunit : (0 : ℚ) < 10 ^ scale := by positivity
  have hvalue : b.value = b.coefficientAt scale / 10 ^ scale := by
    rw [b.coefficientAt_eq hb, mul_div_cancel_right₀ _ hunit.ne']
  rw [hvalue, ← mul_div_assoc, div_le_div_iff_of_pos_right hunit,
    div_le_div_iff_of_pos_right hunit, div_le_div_iff_of_pos_right hunit,
    div_le_div_iff_of_pos_right hunit]
  generalize b.coefficientAt scale = placed
  constructor
  · intro hle
    have hdoubled : 2 * placed ≤ n := by exact_mod_cast hle
    have hkept : placed.toNat ≤ roundHalfEven n 2 := le_roundHalfEven (by decide) (by omega)
    have hplaced : placed ≤ roundHalfEven n 2 := by omega
    exact_mod_cast hplaced
  · intro hle
    have hdoubled : (n : Int) ≤ 2 * placed := by exact_mod_cast hle
    have hkept : roundHalfEven n 2 ≤ placed.toNat := roundHalfEven_le (by decide) (by omega)
    have hplaced : roundHalfEven n 2 ≤ placed := by omega
    exact_mod_cast hplaced

lemma rounded_half_bounds_of_full (hfull : limit ≤ n / 2 * 10) (hb : scale < b.scale) :
    (2 * b.value ≤ n / 10 ^ scale → b.value ≤ roundHalfEven n 2 / 10 ^ scale) ∧
      (n / 10 ^ scale ≤ 2 * b.value → roundHalfEven n 2 / 10 ^ scale ≤ b.value) := by
  have hunit : (0 : ℚ) < 10 ^ scale := by positivity
  have hbelow : b.value < (n / 2 : Nat) / 10 ^ scale := value_lt_of_full hfull hb
  have hhalf : ((n / 2 : Nat) : ℚ) ≤ roundHalfEven n 2 := by
    have hkept : n / 2 ≤ roundHalfEven n 2 := le_roundHalfEven (by decide) (by omega)
    exact_mod_cast hkept
  have hdouble : (2 : ℚ) * (n / 2 : Nat) ≤ n := by
    have hle : 2 * (n / 2) ≤ n := by omega
    exact_mod_cast hle
  constructor
  · intro _
    exact hbelow.le.trans (by gcongr)
  · intro hle
    have habove : (n : ℚ) / 10 ^ scale < 2 * ((n / 2 : Nat) / 10 ^ scale) := by linarith
    rw [← mul_div_assoc, div_lt_div_iff_of_pos_right hunit] at habove
    exact absurd hdouble habove.not_ge

/-- No decimal lies between the exact half and the half that is kept. -/
lemma Halves.bounds (h : Halves a half) (ha : 0 < a.value) (b : Decimal) :
    (2 * b.value ≤ a.value → b.value ≤ half.value) ∧
      (a.value ≤ 2 * b.value → half.value ≤ b.value) := by
  rcases h with hexact | ⟨hround, hfull⟩
  · constructor
    · intro hle
      linarith
    · intro hle
      linarith
  · rw [hround, value_of_pos ha]
    by_cases hb : b.scale ≤ a.scale
    · exact rounded_half_bounds_of_le hb
    · have hroom : limit ≤ a.coefficient.natAbs / 2 * 10 := by
        have := b.scale_le
        omega
      exact rounded_half_bounds_of_full hroom (not_le.mp hb)

/-! Half of the sum of two positive numbers. -/

section Middle

variable {sum mid : Decimal} (ha : 0 < a.value) (hb : 0 < b.value) (hsum : a.add b = .ok sum)
  (hmid : Halves sum mid)

include ha hb hsum

lemma add_pos : 0 < sum.value := hb.trans_le (right_le_add hsum ha.le)

include hmid

/-- The middle lies between two numbers exactly if their rounded sum lies between their doubles. -/
lemma middle_between_iff : (b.value ≤ mid.value ∧ mid.value ≤ a.value) ↔
    (2 * b.value ≤ sum.value ∧ sum.value ≤ 2 * a.value) := by
  have hpos := add_pos ha hb hsum
  constructor
  · rintro ⟨hlower, hupper⟩
    obtain ⟨hbelow, habove⟩ := abs_le.mp (add_near ha hb hsum)
    have hunit : (1 : ℚ) / 10 ^ sum.scale = 2 * (1 / (2 * 10 ^ sum.scale)) := by
      field_simp
    -- Where the half is rounded past one of the two, the exact sum lies beyond half a unit as well.
    rcases hmid.cases hpos with hexact | hup | hdown
    · constructor <;> linarith
    · constructor <;> linarith
    · constructor <;> linarith
  · rintro ⟨hlower, hupper⟩
    exact ⟨(hmid.bounds hpos b).1 hlower, (hmid.bounds hpos a).2 hupper⟩

/-- The middle is off by three quarters of a unit of the last place of the sum at most. -/
lemma middle_near : |mid.value - (a.value + b.value) / 2| ≤ 3 / (4 * 10 ^ sum.scale) := by
  obtain ⟨hbelow, habove⟩ := abs_le.mp (add_near ha hb hsum)
  have hcases := hmid.cases (add_pos ha hb hsum)
  have hquarter : (0 : ℚ) < 1 / (4 * 10 ^ sum.scale) := by positivity
  have hunit : (1 : ℚ) / 10 ^ sum.scale = 4 * (1 / (4 * 10 ^ sum.scale)) := by ring
  have hhalf : (1 : ℚ) / (2 * 10 ^ sum.scale) = 2 * (1 / (4 * 10 ^ sum.scale)) := by ring
  have hthree : (3 : ℚ) / (4 * 10 ^ sum.scale) = 3 * (1 / (4 * 10 ^ sum.scale)) := by ring
  rw [hunit] at hcases
  rw [hhalf] at hbelow habove
  rw [hthree, abs_le]
  rcases hcases with hexact | hup | hdown
  · constructor <;> linarith
  · constructor <;> linarith
  · constructor <;> linarith

/-- Two numbers that lie half a unit of the last place of their sum apart have the middle between
them. -/
lemma middle_between_of_apart (hapart : 1 / (2 * 10 ^ sum.scale) ≤ a.value - b.value) :
    b.value ≤ mid.value ∧ mid.value ≤ a.value := by
  obtain ⟨hbelow, habove⟩ := abs_le.mp (add_near ha hb hsum)
  rw [middle_between_iff ha hb hsum hmid]
  constructor <;> linarith

/-- Two numbers whose sum needs no more digits than a decimal has have the middle between them. -/
lemma middle_between_of_fits (hle : b.value ≤ a.value) (hfits : a.sumCoefficient b < limit) :
    b.value ≤ mid.value ∧ mid.value ≤ a.value := by
  have hexact := add_exact ha hb hsum hfits
  rw [middle_between_iff ha hb hsum hmid, hexact]
  constructor <;> linarith

end Middle

end MarketFeed.Decimal
