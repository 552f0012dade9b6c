import TableKernels.Proofs.Decimal.Length
import TableKernels.Proofs.Decimal.Nearest

/-!
# The shortest decimal rounds back

Decimals and binaries are compared in a unit common to both. The grid of seventeen digits is finer
than the interval of any number, so one of the two neighbours on it is in the interval. Whatever
grid is met first, the decimal that is taken rounds to the number.
-/

namespace TableKernels.Decimal

open Binary64

variable {number : Binary64} {tie : Tie} {scaled : Scaled} {power : ℤ} {digits : ℕ}

/-- The number that a scaled decimal stands for. -/
def Scaled.value (scaled : Scaled) : ℚ := scaled.digits * 10 ^ scaled.power

/-! ## Decimals that are not zero -/

theorem significand_pos (nonzero : number.isZero = false) : 0 < number.significand := by
  have bits : number.bits.toNat < 2 ^ 64 := number.bits.toNat_lt
  simp only [Binary64.isZero, beq_eq_false_iff_ne] at nonzero
  unfold Binary64.significand
  split
  · next least =>
    simp only [Binary64.biasedExponent, Binary64.fraction, Binary64.fractionCount] at *
    omega
  · simp only [Binary64.fractionCount]
    omega

theorem lower_pos (nonzero : number.isZero = false) : 0 < (Interval.of number).lower := by
  have pos := significand_pos nonzero
  change 0 < 4 * number.significand -
    (if number.fraction = 0 && 1 < number.biasedExponent then 1 else 2)
  split <;> omega

theorem Grid.binary_pos (power binary : ℤ) : 0 < (Grid.ofPowers power binary).binary := by
  change 0 < 10 ^ (-power).toNat <<< binary.toNat
  rw [Nat.shiftLeft_eq]
  positivity

theorem not_holds_zero (nonzero : number.isZero = false) (power : ℤ) :
    (Interval.of number).holds (Grid.ofPowers power (Interval.of number).power) 0 = false := by
  have lower := Nat.mul_pos (lower_pos nonzero)
    (Grid.binary_pos power (Interval.of number).power)
  have upper : 0 < (Interval.of number).upper *
      (Grid.ofPowers power (Interval.of number).power).binary :=
    Nat.mul_pos (by simp [Interval.of]) (Grid.binary_pos power (Interval.of number).power)
  simp only [Interval.holds, Nat.zero_mul, Nat.not_lt_zero, decide_false, Bool.false_and,
    Bool.false_or, Bool.and_eq_false_iff, Bool.or_eq_false_iff, beq_eq_false_iff_ne]
  exact .inr ⟨lower.ne, upper.ne⟩

theorem holds_neighbour? {interval : Interval} {power : ℤ} {digits : ℕ}
    (found : interval.neighbour? tie power = some digits) :
    interval.holds (Grid.ofPowers power interval.power) digits = true := by
  simp only [Interval.neighbour?] at found
  grind

theorem trim_pos (fuel : ℕ) {scaled : Scaled} (pos : 0 < scaled.digits) :
    0 < (Scaled.trim fuel scaled).digits := by
  induction fuel generalizing scaled with
  | zero => exact pos
  | succ fuel hypothesis =>
    rw [Scaled.trim]
    split
    · exact hypothesis (by simp only; omega)
    · exact pos

/-- The shortest decimal of a nonzero number is not zero. -/
theorem shortest_pos (nonzero : number.isZero = false) (tie : Tie) :
    0 < (shortest tie number).digits := by
  -- Every grid that may be met, and the exact number if none is.
  have all (left : ℕ) :
      0 < (shortestFrom (Interval.of number) tie (leadingPower number) left).digits := by
    induction left with
    | zero =>
      have pos := significand_pos nonzero
      change 0 < 4 * number.significand
      omega
    | succ left hypothesis =>
      rw [shortestFrom]
      split
      · next digits found =>
        refine trim_pos 17 (Nat.pos_of_ne_zero ?_)
        rintro rfl
        exact absurd (holds_neighbour? found) (by simp [not_holds_zero nonzero])
      · exact hypothesis
  exact all 17

/-! ## A common unit -/

theorem pow_toNat {base : ℚ} (nonzero : base ≠ 0) (power : ℤ) :
    base ^ power.toNat = base ^ power * base ^ (-power).toNat := by
  obtain ⟨count, rfl | rfl⟩ := power.eq_nat_or_neg
  · simp
  · simp [nonzero]

theorem exists_common (power binary : ℤ) : ∃ common : ℚ, 0 < common ∧
    ((Grid.ofPowers power binary).decimal : ℚ) = 10 ^ power * common ∧
      ((Grid.ofPowers power binary).binary : ℚ) = 2 ^ binary * common := by
  refine ⟨10 ^ (-power).toNat * 2 ^ (-binary).toNat, by positivity, ?_, ?_⟩
  · simp only [Grid.ofPowers, Nat.shiftLeft_eq, Nat.pow_eq]
    push_cast
    rw [pow_toNat (by norm_num) power]
    ring
  · simp only [Grid.ofPowers, Nat.shiftLeft_eq, Nat.pow_eq]
    push_cast
    rw [pow_toNat two_ne_zero binary]
    ring

/-- A decimal on a grid is in the interval if it rounds to the number. -/
theorem holds_iff : (Interval.of number).holds
    (Grid.ofPowers power (Interval.of number).power) digits = true ↔
      number.Nearest (digits * 10 ^ power) := by
  obtain ⟨common, pos, decimal, binary⟩ := exists_common power (Interval.of number).power
  have lt (left right : ℕ) (first second : ℚ) (same : (left : ℚ) = first * common)
      (same' : (right : ℚ) = second * common) : left < right ↔ first < second := by
    rw [← Nat.cast_lt (α := ℚ), same, same', mul_lt_mul_iff_left₀ pos]
  have eq (left right : ℕ) (first second : ℚ) (same : (left : ℚ) = first * common)
      (same' : (right : ℚ) = second * common) : left = right ↔ first = second := by
    rw [← Nat.cast_inj (R := ℚ), same, same', mul_left_inj' pos.ne']
  have place : ((digits * (Grid.ofPowers power (Interval.of number).power).decimal : ℕ) : ℚ) =
      digits * 10 ^ power * common := by
    rw [Nat.cast_mul, decimal]
    ring
  have bound (bound : ℕ) :
      ((bound * (Grid.ofPowers power (Interval.of number).power).binary : ℕ) : ℚ) =
        bound * 2 ^ (Interval.of number).power * common := by
    rw [Nat.cast_mul, binary]
    ring
  simp only [Interval.holds, Nearest, Bool.or_eq_true, Bool.and_eq_true, decide_eq_true_eq,
    beq_iff_eq, lt _ _ _ _ (bound _) place, lt _ _ _ _ place (bound _), eq _ _ _ _ place (bound _)]

/-! ## The leading power -/

theorem tenPowerLE_iff : tenPowerLE power number.significand number.exponent = true ↔
    10 ^ power ≤ number.size := by
  obtain ⟨common, pos, decimal, binary⟩ := exists_common power number.exponent
  rw [tenPowerLE, decide_eq_true_eq, ← Nat.cast_le (α := ℚ), Nat.cast_mul, decimal, binary,
    ← mul_assoc, mul_le_mul_iff_left₀ pos, size]

theorem zpow_le_zpow_of_nonpos {small large : ℚ} (pos : 0 < small) (le : small ≤ large)
    {power : ℤ} (nonpos : power ≤ 0) : large ^ power ≤ small ^ power := by
  have inverse := inv_anti₀ (zpow_pos pos (-power))
    (zpow_le_zpow_left₀ (neg_nonneg.mpr nonpos) pos.le le)
  rwa [← zpow_neg, ← zpow_neg, neg_neg] at inverse

section

variable {tens twos : ℕ} {binary guess : ℤ}

/-- Powers of ten and of two whose exponents are in the ratio of two nearly equal powers. -/
theorem ten_zpow_le (least : (2 : ℚ) ^ twos ≤ 10 ^ tens)
    (greatest : (10 : ℚ) ^ tens ≤ 2 ^ (twos + 1)) (some : twos ≠ 0) (small : binary ≤ twos)
    (fits : guess * twos ≤ binary * tens) : (10 : ℚ) ^ guess ≤ 2 ^ (binary + 1) := by
  -- A negative power turns the comparison of the two bases around, so the other bound is used.
  have powers : ((10 : ℚ) ^ tens) ^ binary ≤ 2 ^ ((binary + 1) * twos) := by
    rcases le_or_gt 0 binary with nonneg | negative
    · calc ((10 : ℚ) ^ tens) ^ binary ≤ (2 ^ (twos + 1)) ^ binary :=
            zpow_le_zpow_left₀ nonneg (by positivity) greatest
        _ = 2 ^ ((twos + 1 : ℕ) * binary) := by rw [← zpow_natCast, ← zpow_mul]
        _ ≤ 2 ^ ((binary + 1) * twos) :=
          zpow_le_zpow_right₀ (by norm_num) (by push_cast; linarith)
    · calc ((10 : ℚ) ^ tens) ^ binary ≤ (2 ^ twos) ^ binary :=
            zpow_le_zpow_of_nonpos (by positivity) least negative.le
        _ = 2 ^ (twos * binary) := by rw [← zpow_natCast, ← zpow_mul]
        _ ≤ 2 ^ ((binary + 1) * twos) := zpow_le_zpow_right₀ (by norm_num) (by linarith)
  refine (pow_le_pow_iff_left₀ (by positivity) (by positivity) some).mp ?_
  calc ((10 : ℚ) ^ guess) ^ twos = 10 ^ (guess * twos) := by rw [← zpow_natCast, ← zpow_mul]
    _ ≤ 10 ^ (binary * tens) := zpow_le_zpow_right₀ (by norm_num) fits
    _ = ((10 : ℚ) ^ tens) ^ binary := by rw [← zpow_natCast, ← zpow_mul, mul_comm]
    _ ≤ 2 ^ ((binary + 1) * twos) := powers
    _ = (2 ^ (binary + 1)) ^ twos := by rw [← zpow_natCast, ← zpow_mul]

theorem le_ten_zpow (least : (2 : ℚ) ^ twos ≤ 10 ^ tens)
    (greatest : (10 : ℚ) ^ tens ≤ 2 ^ (twos + 1)) (some : twos ≠ 0) (large : -twos ≤ binary)
    (fits : binary * tens ≤ guess * twos) : (2 : ℚ) ^ (binary - 1) ≤ 10 ^ guess := by
  have powers : (2 : ℚ) ^ ((binary - 1) * twos) ≤ (10 ^ tens) ^ binary := by
    rcases le_or_gt 0 binary with nonneg | negative
    · calc (2 : ℚ) ^ ((binary - 1) * twos) ≤ 2 ^ (twos * binary) :=
            zpow_le_zpow_right₀ (by norm_num) (by linarith)
        _ = (2 ^ twos) ^ binary := by rw [← zpow_natCast, ← zpow_mul]
        _ ≤ (10 ^ tens) ^ binary := zpow_le_zpow_left₀ nonneg (by positivity) least
    · calc (2 : ℚ) ^ ((binary - 1) * twos) ≤ 2 ^ ((twos + 1 : ℕ) * binary) :=
            zpow_le_zpow_right₀ (by norm_num) (by push_cast; linarith)
        _ = (2 ^ (twos + 1)) ^ binary := by rw [← zpow_natCast, ← zpow_mul]
        _ ≤ (10 ^ tens) ^ binary := zpow_le_zpow_of_nonpos (by positivity) greatest negative.le
  refine (pow_le_pow_iff_left₀ (by positivity) (by positivity) some).mp ?_
  calc ((2 : ℚ) ^ (binary - 1)) ^ twos = 2 ^ ((binary - 1) * twos) := by
        rw [← zpow_natCast, ← zpow_mul]
    _ ≤ (10 ^ tens) ^ binary := powers
    _ = 10 ^ (binary * tens) := by rw [← zpow_natCast, ← zpow_mul, mul_comm]
    _ ≤ 10 ^ (guess * twos) := zpow_le_zpow_right₀ (by norm_num) fits
    _ = (10 ^ guess) ^ twos := by rw [← zpow_natCast, ← zpow_mul]

end

theorem log_two : 2 ^ 100000 ≤ 10 ^ 30103 ∧ 10 ^ 30103 ≤ 2 ^ (100000 + 1) := by
  decide +kernel

theorem size_bounds (pos : 0 < number.significand) :
    2 ^ (number.significand.log2 + number.exponent) ≤ number.size ∧
      number.size < 2 * 2 ^ (number.significand.log2 + number.exponent) := by
  obtain ⟨le, lt⟩ := cast_log2_bounds pos
  have unit : (0 : ℚ) < 2 ^ number.exponent := by positivity
  rw [size, zpow_add₀ two_ne_zero, ← mul_assoc]
  exact ⟨mul_le_mul_of_nonneg_right le unit.le, mul_lt_mul_of_pos_right lt unit⟩

/-- The power of ten of the leading digit. -/
theorem leadingPower_spec (pos : 0 < number.significand) :
    10 ^ leadingPower number ≤ number.size ∧
      number.size < 10 ^ (leadingPower number + 1) := by
  obtain ⟨binary, defined⟩ : ∃ binary : ℤ,
      binary = number.significand.log2 + number.exponent := ⟨_, rfl⟩
  obtain ⟨guess, guessed⟩ : ∃ guess, guess = binary * 30103 / 100000 := ⟨_, rfl⟩
  obtain ⟨le, lt⟩ := size_bounds pos
  rw [← defined] at le lt
  have log : number.significand.log2 < 53 :=
    (Nat.log2_lt pos.ne').mpr (significand_lt number)
  have exponent := exponent_bounds number
  have least : (2 : ℚ) ^ 100000 ≤ 10 ^ 30103 := by exact_mod_cast log_two.1
  have greatest : (10 : ℚ) ^ 30103 ≤ 2 ^ (100000 + 1) := by exact_mod_cast log_two.2
  -- The guess is off by at most one on either side, and the two comparisons settle which.
  have low : (10 : ℚ) ^ guess ≤ 2 ^ (binary + 1) :=
    ten_zpow_le least greatest (by decide) (by push_cast; omega) (by push_cast; omega)
  have high : (2 : ℚ) ^ (binary - 1) ≤ 10 ^ (guess + 1) :=
    le_ten_zpow least greatest (by decide) (by push_cast; omega) (by push_cast; omega)
  -- Powers this large in the context slow down what follows.
  clear least greatest
  rw [zpow_add_one₀ two_ne_zero] at low
  rw [zpow_sub_one₀ two_ne_zero] at high
  have below : (10 : ℚ) ^ (guess - 1) ≤ number.size := by
    rw [zpow_sub_one₀ (by norm_num)]
    linarith
  have above : number.size < 10 ^ (guess + 1 + 1) := by
    rw [zpow_add_one₀ (by norm_num) (guess + 1)]
    linarith
  have result : leadingPower number =
      if tenPowerLE (guess + 1) number.significand number.exponent then guess + 1
      else if tenPowerLE guess number.significand number.exponent then guess else guess - 1 := by
    rw [guessed, defined]
    rfl
  rw [result]
  split
  · next reaches => exact ⟨tenPowerLE_iff.mp reaches, above⟩
  · next beyond =>
    rw [tenPowerLE_iff, not_le] at beyond
    split
    · next reaches => exact ⟨tenPowerLE_iff.mp reaches, beyond⟩
    · next short =>
      rw [tenPowerLE_iff, not_le] at short
      exact ⟨below, by rwa [sub_add_cancel]⟩

/-! ## A grid that is fine enough -/

/-- The interval of a number is not much smaller than the number. -/
theorem width_large (pos : 0 < number.significand) :
    4 * number.significand + (Interval.of number).lower * 10 ^ 16 <
      (Interval.of number).upper * 10 ^ 16 := by
  have small := significand_lt number
  have lower : (Interval.of number).lower = 4 * number.significand -
      if number.fraction = 0 && 1 < number.biasedExponent then 1 else 2 := rfl
  have upper : (Interval.of number).upper = 4 * number.significand + 2 := rfl
  rw [lower, upper]
  split
  · next power =>
    simp only [Bool.and_eq_true, decide_eq_true_eq] at power
    obtain ⟨_, _, size⟩ := number.exponent_cases.resolve_left (by omega)
    omega
  · omega

/-- A number lies between its two neighbours on a grid. -/
theorem between_neighbours (number : Binary64) (power : ℤ) : ∃ below : ℕ,
    below = (Interval.of number).middle *
      (Grid.ofPowers power (Interval.of number).power).binary /
        (Grid.ofPowers power (Interval.of number).power).decimal ∧
    below * 10 ^ power ≤ number.size ∧ number.size < (below + 1 : ℕ) * 10 ^ power := by
  refine ⟨_, rfl, ?_⟩
  obtain ⟨common, pos, decimal, binary⟩ := exists_common power (Interval.of number).power
  have size : ((Interval.of number).middle *
      (Grid.ofPowers power (Interval.of number).power).binary : ℕ) = number.size * common := by
    rw [Nat.cast_mul, binary, Binary64.size, two_zpow_exponent, Interval.of]
    push_cast
    ring
  have unit : 0 < (Grid.ofPowers power (Interval.of number).power).decimal := by
    rw [← Nat.cast_pos (α := ℚ), decimal]
    positivity
  generalize (Interval.of number).middle *
    (Grid.ofPowers power (Interval.of number).power).binary = place at *
  generalize (Grid.ofPowers power (Interval.of number).power).decimal = step at *
  have le : ((place / step * step : ℕ) : ℚ) ≤ place := by
    exact_mod_cast Nat.div_mul_le_self place step
  have lt : (place : ℚ) < ((place / step + 1) * step : ℕ) := by
    exact_mod_cast Nat.lt_mul_of_div_lt (Nat.lt_succ_self _) unit
  rw [Nat.cast_mul, decimal, size, ← mul_assoc] at le lt
  exact ⟨le_of_mul_le_mul_right le pos, lt_of_mul_lt_mul_right lt pos.le⟩

/-- If the grid is finer than the interval, a neighbour reads back. -/
theorem neighbour?_ne_none (tie : Tie)
    (fine : (10 : ℚ) ^ power + (Interval.of number).lower * 2 ^ (Interval.of number).power <
      (Interval.of number).upper * 2 ^ (Interval.of number).power) :
    (Interval.of number).neighbour? tie power ≠ none := by
  intro absent
  obtain ⟨below, same, le, lt⟩ := between_neighbours number power
  have unit : (0 : ℚ) < 2 ^ (Interval.of number).power := by positivity
  obtain ⟨no_below, no_above⟩ : ¬ number.Nearest (below * 10 ^ power) ∧
      ¬ number.Nearest ((below + 1 : ℕ) * 10 ^ power) := by
    rw [← holds_iff, ← holds_iff, same]
    simp only [Interval.neighbour?] at absent
    grind
  have number_lt : number.size < (Interval.of number).upper * 2 ^ (Interval.of number).power := by
    rw [Binary64.size, two_zpow_exponent, cast_upper]
    linarith
  have low : (below : ℚ) * 10 ^ power ≤
      (Interval.of number).lower * 2 ^ (Interval.of number).power := by
    by_contra above
    exact no_below (.inl ⟨not_le.mp above, le.trans_lt number_lt⟩)
  have high : (Interval.of number).upper * 2 ^ (Interval.of number).power ≤
      ((below + 1 : ℕ) : ℚ) * 10 ^ power := by
    by_contra less
    have lower_le := mul_le_mul_of_nonneg_right (cast_lower number).2.2 unit.le
    refine no_above (.inl ⟨lt_of_le_of_lt ?_ lt, not_le.mp less⟩)
    rw [Binary64.size, two_zpow_exponent]
    linarith
  -- Both neighbours are outside, so the interval fits between them, and it is too wide for that.
  push_cast at high
  linarith

/-! ## The decimal that is taken -/

theorem trim_value (fuel : ℕ) (scaled : Scaled) :
    (Scaled.trim fuel scaled).value = scaled.value := by
  induction fuel generalizing scaled with
  | zero => rfl
  | succ fuel hypothesis =>
    rw [Scaled.trim]
    split
    · next zero =>
      rw [hypothesis, Scaled.value, Scaled.value, zpow_add_one₀ (by norm_num)]
      have tenth : ((scaled.digits / 10 * 10 : ℕ) : ℚ) = scaled.digits := by
        exact_mod_cast Nat.div_mul_cancel (Nat.dvd_of_mod_eq_zero zero.2)
      rw [← tenth]
      push_cast
      ring
    · rfl

theorem neighbour?_le (pos : 0 < number.significand) (coarse : leadingPower number - 16 ≤ power)
    (found : (Interval.of number).neighbour? tie power = some digits) : digits ≤ 10 ^ 17 := by
  obtain ⟨below, same, le, _⟩ := between_neighbours number power
  have near : digits = below ∨ digits = below + 1 := by
    simp only [Interval.neighbour?, ← same] at found
    grind
  have step : (0 : ℚ) < 10 ^ power := by positivity
  have few : (below : ℚ) < (10 ^ 17 : ℕ) := by
    refine lt_of_mul_lt_mul_right ?_ step.le
    calc (below : ℚ) * 10 ^ power ≤ number.size := le
      _ < 10 ^ (leadingPower number + 1) := (leadingPower_spec pos).2
      _ ≤ 10 ^ (17 + power) := zpow_le_zpow_right₀ (by norm_num) (by omega)
      _ = (10 ^ 17 : ℕ) * 10 ^ power := by
        rw [zpow_add₀ (by norm_num)]
        norm_num
  have few : below < 10 ^ 17 := by exact_mod_cast few
  omega

/-- Seventeen digits always read back. -/
theorem seventeen_ne_none (tie : Tie) (pos : 0 < number.significand) :
    (Interval.of number).neighbour? tie (leadingPower number - 16) ≠ none := by
  refine neighbour?_ne_none tie ?_
  obtain ⟨le, _⟩ := leadingPower_spec pos
  have unit : (0 : ℚ) < 2 ^ (Interval.of number).power := by positivity
  have wide : (4 * number.significand + (Interval.of number).lower * 10 ^ 16 : ℚ) <
      (Interval.of number).upper * 10 ^ 16 := by
    exact_mod_cast width_large pos
  rw [Binary64.size, two_zpow_exponent] at le
  rw [zpow_sub₀ (by norm_num)]
  have scaled := mul_lt_mul_of_pos_right wide unit
  norm_num at scaled ⊢
  linarith

/-- A grid on which some decimal rounds to the number is fine enough: none finer is tried. -/
theorem exists_shortest_of_grid {fine : ℤ} (least : leadingPower number - 16 ≤ fine)
    (greatest : fine ≤ leadingPower number)
    (met : (Interval.of number).neighbour? tie fine ≠ none) : ∃ power digits, fine ≤ power ∧
      (Interval.of number).neighbour? tie power = some digits ∧
        shortest tie number = Scaled.trim 17 ⟨digits, power⟩ := by
  obtain ⟨last, le, same⟩ : ∃ last ≤ 16, fine = leadingPower number - (16 - last : ℕ) :=
    ⟨(16 - (leadingPower number - fine)).toNat, by omega, by omega⟩
  -- The induction goes from the given grid up to the coarsest, where the search begins.
  have all (left : ℕ) (lower : last ≤ left) (upper : left ≤ 16) : ∃ power digits, fine ≤ power ∧
      (Interval.of number).neighbour? tie power = some digits ∧
        shortestFrom (Interval.of number) tie (leadingPower number) (left + 1) =
          Scaled.trim 17 ⟨digits, power⟩ := by
    induction left, lower using Nat.le_induction with
    | base =>
      rw [shortestFrom]
      split
      · next digits found => exact ⟨_, digits, same.le, found, rfl⟩
      · next absent => exact absurd (same ▸ absent) met
    | succ left lower hypothesis =>
      rw [shortestFrom]
      split
      · next digits found => exact ⟨_, digits, by omega, found, rfl⟩
      · exact hypothesis (by omega)
  exact all 16 le (le_refl 16)

theorem exists_shortest (tie : Tie) (nonzero : number.isZero = false) : ∃ power digits,
    leadingPower number - 16 ≤ power ∧
      (Interval.of number).neighbour? tie power = some digits ∧
        shortest tie number = Scaled.trim 17 ⟨digits, power⟩ :=
  exists_shortest_of_grid (le_refl _) (by omega)
    (seventeen_ne_none tie (significand_pos nonzero))

/-- The shortest decimal rounds to the number. -/
theorem shortest_nearest (tie : Tie) (nonzero : number.isZero = false) :
    number.Nearest (shortest tie number).value := by
  obtain ⟨power, digits, _, found, same⟩ := exists_shortest tie nonzero
  rw [same, trim_value]
  exact holds_iff.mp (holds_neighbour? found)

theorem shortest_le (tie : Tie) (nonzero : number.isZero = false) :
    (shortest tie number).digits ≤ 10 ^ 17 := by
  obtain ⟨power, digits, coarse, found, same⟩ := exists_shortest tie nonzero
  rw [same]
  exact (trim_bounds 17 _).1.trans (neighbour?_le (significand_pos nonzero) coarse found)

end TableKernels.Decimal
