import TableKernels.Decimal.Shortest
import TableKernels.Proofs.Binary64.Rounding

/-!
# The reals that round to a number

The interval of a number holds exactly what rounds to it: a quotient in the interval is rounded to
the number, also just below a power of two, where it is brought to another scale.
-/

namespace TableKernels

open Decimal

namespace Binary64

variable {number : Binary64} {numerator denominator : ℕ}

/-- A real rounds to a number: it is in the number's interval. -/
def Nearest (number : Binary64) (value : ℚ) : Prop :=
  let interval := Interval.of number
  let unit : ℚ := 2 ^ interval.power
  (interval.lower * unit < value ∧ value < interval.upper * unit) ∨
    (interval.closed = true ∧ (value = interval.lower * unit ∨ value = interval.upper * unit))

/-! ## Rounding to a number -/

section

variable {value : ℚ}

theorem two_zpow_exponent (number : Binary64) :
    (2 : ℚ) ^ number.exponent = 4 * 2 ^ (Interval.of number).power := by
  change _ = 4 * (2 : ℚ) ^ (number.exponent - 2)
  rw [zpow_sub₀ two_ne_zero]
  norm_num
  ring

theorem cast_upper (number : Binary64) :
    ((Interval.of number).upper : ℚ) = 4 * number.significand + 2 := by
  simp [Interval.of]

/-- Half a unit below a number, in quarters; just below a power of two only half of that. -/
theorem cast_lower (number : Binary64) :
    4 * (number.significand : ℚ) - 2 ≤ (Interval.of number).lower ∧
      (number.fraction = 0 → 1 < number.biasedExponent →
        4 * (number.significand : ℚ) - 1 ≤ (Interval.of number).lower) ∧
      (Interval.of number).lower ≤ 4 * (number.significand : ℚ) := by
  obtain ⟨less, small, lower, power⟩ : ∃ less ≤ 2,
      (Interval.of number).lower = 4 * number.significand - less ∧
        (number.fraction = 0 → 1 < number.biasedExponent → less = 1) := by
    refine ⟨if number.fraction = 0 && 1 < number.biasedExponent then 1 else 2, by split <;> simp,
      rfl, fun zero more => ?_⟩
    simp [zero, more]
  have sum : ((4 * number.significand : ℕ) : ℚ) ≤
      ((4 * number.significand - less) + less : ℕ) := by
    exact_mod_cast Nat.le_add_of_sub_le (le_refl _)
  have part : ((4 * number.significand - less : ℕ) : ℚ) ≤ (4 * number.significand : ℕ) := by
    exact_mod_cast Nat.sub_le _ _
  have most : (less : ℚ) ≤ 2 := by exact_mod_cast small
  rw [lower]
  push_cast at sum part
  refine ⟨by linarith, fun zero more => ?_, part⟩
  rw [power zero more] at sum ⊢
  push_cast at sum
  linarith

/-- What rounds to a number is at most half a unit away; that far only if the number is even. -/
theorem Nearest.half (near : number.Nearest value) :
    (number.significand - 1 / 2) * 2 ^ number.exponent ≤ value ∧
      value ≤ (number.significand + 1 / 2) * 2 ^ number.exponent ∧
      ((number.significand - 1 / 2) * 2 ^ number.exponent = value ∨
        value = (number.significand + 1 / 2) * 2 ^ number.exponent →
          number.significand % 2 = 0) := by
  have unit : (0 : ℚ) < 2 ^ (Interval.of number).power := by positivity
  have least := mul_le_mul_of_nonneg_right (cast_lower number).1 unit.le
  have most := mul_le_mul_of_nonneg_right (cast_lower number).2.2 unit.le
  have closed : (Interval.of number).closed = true ↔ number.significand % 2 = 0 := by
    simp [Interval.of]
  rw [two_zpow_exponent]
  simp only [Nearest, cast_upper, closed] at near
  rcases near with ⟨above, below⟩ | ⟨even, same | same⟩
  · refine ⟨by linarith, by linarith, ?_⟩
    rintro (same | same) <;> exfalso <;> linarith
  · exact ⟨by linarith, by linarith, fun _ => even⟩
  · exact ⟨by linarith, by linarith, fun _ => even⟩

/-- Just below a power of two numbers are twice as dense. -/
theorem Nearest.quarter (near : number.Nearest value) (zero : number.fraction = 0)
    (more : 1 < number.biasedExponent) :
    (number.significand - 1 / 4) * 2 ^ number.exponent ≤ value := by
  have unit : (0 : ℚ) < 2 ^ (Interval.of number).power := by positivity
  have least := mul_le_mul_of_nonneg_right ((cast_lower number).2.1 zero more) unit.le
  have most := mul_le_mul_of_nonneg_right (cast_lower number).2.2 unit.le
  rw [two_zpow_exponent]
  simp only [Nearest, cast_upper] at near
  rcases near with ⟨above, below⟩ | ⟨even, same | same⟩ <;> linarith

/-- What rounds to a number is brought to its scale, or to the next one below a power of two. -/
theorem Nearest.isScale (near : number.Nearest value) :
    IsScale value number.exponent ∨
      number.significand = 2 ^ 52 ∧ IsScale value (number.exponent - 1) ∧
        (2 ^ 53 - 1 / 2) * 2 ^ (number.exponent - 1) ≤ value := by
  obtain ⟨lower, upper, _⟩ := near.half
  have unit : (0 : ℚ) < 2 ^ number.exponent := by positivity
  have fraction := number.fraction_lt
  have small : (number.significand : ℚ) + 1 ≤ 2 ^ 53 := by
    have : number.significand + 1 ≤ 2 ^ 53 := by
      rcases number.exponent_cases with ⟨_, _, size⟩ | ⟨_, _, size⟩ <;> omega
    exact_mod_cast this
  have lt : value < 2 ^ 53 * 2 ^ number.exponent :=
    upper.trans_lt (mul_lt_mul_of_pos_right (by linarith) unit)
  -- A value below `2 ^ 52` units is not at the scale of the number, yet at most half a unit away, so
  -- the number is a power of two and the value lies on the denser side of it.
  by_cases normal : number.exponent = -1074 ∨ 2 ^ 52 * 2 ^ number.exponent ≤ value
  · refine .inl ⟨?_, lt, normal⟩
    rcases number.exponent_cases with ⟨_, power, _⟩ | ⟨_, power, _⟩ <;> omega
  · obtain ⟨power, below⟩ := not_or.mp normal
    rw [not_le] at below
    obtain ⟨some, same, size⟩ := number.exponent_cases.resolve_left fun zero => power zero.2.1
    have half := two_zpow_eq_double number.exponent
    have zero : number.fraction = 0 := by
      by_contra other
      have : (2 ^ 52 + 1 : ℚ) ≤ number.significand := by
        rw [size]
        exact_mod_cast (show 2 ^ 52 + 1 ≤ 2 ^ 52 + number.fraction by omega)
      have := mul_le_mul_of_nonneg_right this unit.le
      linarith
    have even : (number.significand : ℚ) = 2 ^ 52 := by
      rw [size, zero]
      norm_num
    have least := near.quarter zero (by omega)
    rw [even, half] at least
    rw [half] at below
    have inner : (0 : ℚ) < 2 ^ (number.exponent - 1) := by positivity
    refine .inr ⟨by omega, ⟨by omega, by linarith, .inr ?_⟩, ?_⟩ <;> linarith

/-- A quotient in the interval of a number has its word. -/
theorem magnitudeWord_of_nearest (finite : number.isFinite = true) (pos : 0 < denominator)
    (near : number.Nearest (numerator / denominator)) :
    magnitudeWord numerator denominator = number.magnitude := by
  obtain ⟨lower, upper, tie⟩ := near.half
  have most := magnitude_lt finite
  rcases Nat.eq_zero_or_pos numerator with rfl | above
  · have unit : (0 : ℚ) < 2 ^ number.exponent := by positivity
    have none : number.significand = 0 := by
      by_contra some
      have one : (1 : ℚ) ≤ number.significand := by
        exact_mod_cast Nat.one_le_iff_ne_zero.mpr some
      have := mul_le_mul_of_nonneg_right one unit.le
      rw [Nat.cast_zero, zero_div] at lower
      linarith
    rcases number.exponent_cases with ⟨_, power, _⟩ | ⟨_, _, size⟩
    · rw [magnitude_eq, none, power]
      rfl
    · omega
  · rcases near.isScale with isScale | ⟨power, isScale, least⟩
    · rw [magnitudeWord_eq above pos isScale lower upper tie, ← magnitude_eq, min_eq_left most.le]
    -- On the denser side the quotient rounds up to `2 ^ 53` units of half the size.
    · have half := two_zpow_eq_double number.exponent
      have inner : (0 : ℚ) < 2 ^ (number.exponent - 1) := by positivity
      have lt := isScale.lt
      have word : magnitudeWord numerator denominator =
          min ((number.exponent - 1 + 1074).toNat * fractionCount + 2 ^ 53) infinityWord :=
        magnitudeWord_eq above pos isScale (by push_cast; linarith) (by push_cast; linarith)
          (fun _ => by norm_num)
      have same : (number.exponent - 1 + 1074).toNat * fractionCount + 2 ^ 53 =
          number.magnitude := by
        have scale := isScale.least
        rw [magnitude_eq, power]
        simp only [fractionCount]
        omega
      rw [word, same, min_eq_left most.le]

end

end Binary64

end TableKernels
