import TableKernels.Proofs.Json.Rereading

/-!
# Whole numbers come back

A whole number of at most fourteen digits lies on the grid of integers, so its shortest decimal has
no digit behind the point and none that the number does not have. With the zero that is written
behind the point its digits are still exact in binary, and the number comes back.
-/

namespace TableKernels

open Json Decimal

variable {number : Binary64} {tie : Tie} {power : ℤ} {whole : ℕ}

/-- A whole number of at most fourteen digits, with either sign. -/
structure Binary64.IsSmallInteger (number : Binary64) : Prop where
  finite : number.isFinite = true
  whole : ∃ whole : ℕ, number.size = whole ∧ whole < 10 ^ 14

namespace Decimal

theorem nearest_size (nonzero : number.isZero = false) : number.Nearest number.size := by
  have pos := significand_pos nonzero
  have unit : (0 : ℚ) < 2 ^ (Interval.of number).power := by positivity
  have lower : ((Interval.of number).lower : ℚ) < 4 * number.significand := by
    have natural : (Interval.of number).lower < 4 * number.significand := by
      change 4 * number.significand - (if _ then 1 else 2) < _
      split <;> omega
    exact_mod_cast natural
  have middle : number.size = 4 * number.significand * 2 ^ (Interval.of number).power := by
    rw [Binary64.size, Binary64.two_zpow_exponent]
    ring
  refine .inl ⟨?_, ?_⟩
  · rw [middle]
    exact mul_lt_mul_of_pos_right lower unit
  · rw [middle, Binary64.cast_upper]
    exact mul_lt_mul_of_pos_right (by linarith) unit

theorem neighbour?_of_size (tie : Tie) (nonzero : number.isZero = false)
    (size : number.size = whole * 10 ^ power) :
    (Interval.of number).neighbour? tie power ≠ none := by
  intro absent
  obtain ⟨below, same, le, lt⟩ := between_neighbours number power
  have step : (0 : ℚ) < 10 ^ power := by positivity
  rw [size] at le lt
  have least : below ≤ whole := by exact_mod_cast le_of_mul_le_mul_right le step
  have most : whole < below + 1 := by exact_mod_cast lt_of_mul_lt_mul_right lt step.le
  have holds := holds_iff.mpr (size ▸ nearest_size nonzero)
  obtain rfl : whole = below := by omega
  simp only [Interval.neighbour?, ← same] at absent
  grind

theorem Nearest.lt_double {value : ℚ} (near : number.Nearest value)
    (nonzero : number.isZero = false) : value < 2 * number.size := by
  have unit : (0 : ℚ) < 2 ^ number.exponent := by positivity
  have one : (1 : ℚ) ≤ number.significand := by exact_mod_cast significand_pos nonzero
  calc value ≤ (number.significand + 1 / 2) * 2 ^ number.exponent := near.half.2.1
    _ < 2 * number.significand * 2 ^ number.exponent :=
      mul_lt_mul_of_pos_right (by linarith) unit
    _ = 2 * number.size := by rw [Binary64.size, mul_assoc]

/-- The shortest decimal of a small whole number is whole and not much larger. -/
theorem shortest_of_whole (tie : Tie) (nonzero : number.isZero = false)
    (size : number.size = whole) (small : whole < 10 ^ 14) :
    0 ≤ (shortest tie number).power ∧
      (shortest tie number).digits * 10 ^ (shortest tie number).power.toNat < 2 * 10 ^ 14 := by
  have pos := significand_pos nonzero
  obtain ⟨le, lt⟩ := leadingPower_spec pos
  rw [size] at le lt
  have least : 0 ≤ leadingPower number := by
    by_contra negative
    have one : (1 : ℚ) ≤ whole := by
      have positive : (0 : ℚ) < whole := (zpow_pos (by norm_num) _).trans_le le
      exact_mod_cast positive
    have : (10 : ℚ) ^ (leadingPower number + 1) ≤ 10 ^ (0 : ℤ) :=
      zpow_le_zpow_right₀ (by norm_num) (by omega)
    rw [zpow_zero] at this
    linarith
  have most : leadingPower number ≤ 16 := by
    by_contra large
    have : (10 : ℚ) ^ (14 : ℤ) ≤ 10 ^ leadingPower number :=
      zpow_le_zpow_right₀ (by norm_num) (by omega)
    have few : (whole : ℚ) < 10 ^ (14 : ℤ) := by exact_mod_cast small
    linarith
  -- The grid of integers is met, so no finer one is tried.
  have met : (Interval.of number).neighbour? tie 0 ≠ none :=
    neighbour?_of_size tie nonzero (by rw [zpow_zero, mul_one]; exact size)
  obtain ⟨power, digits, coarse, found, same⟩ := exists_shortest_of_grid (by omega) least met
  have nonneg : 0 ≤ (shortest tie number).power := by
    rw [same]
    exact coarse.trans (trim_bounds 17 ⟨digits, power⟩).2.1
  refine ⟨nonneg, ?_⟩
  have value := Nearest.lt_double (shortest_nearest tie nonzero) nonzero
  obtain ⟨count, natural⟩ := Int.eq_ofNat_of_zero_le nonneg
  rw [Scaled.value, natural, zpow_natCast, size] at value
  rw [natural, Int.toNat_natCast]
  have bound : ((shortest tie number).digits * 10 ^ count : ℚ) < 2 * 10 ^ 14 := by
    have few : (whole : ℚ) < 10 ^ 14 := by exact_mod_cast small
    linarith
  exact_mod_cast bound

end Decimal

namespace Json

/-- The text of a small whole number is short. -/
theorem isShort_of_whole (size : number.size = whole) (small : whole < 10 ^ 14) :
    IsShort number := by
  cases zero : number.isZero with
  | true =>
    rw [IsShort, floatParts, if_pos zero]
    cases number.isNegative <;> decide
  | false =>
    obtain ⟨nonneg, bound⟩ := shortest_of_whole .toEven zero size small
    have positive := shortest_pos zero .toEven
    rcases decimal_floatParts zero number.isNegative with
      ⟨digits, exponent⟩ | ⟨_, digits, _, exponent⟩
    · have le := Nat.le_mul_of_pos_right (shortest .toEven number).digits
        (Nat.pow_pos (n := (shortest .toEven number).power.toNat) (show 0 < 10 by decide))
      have power : (shortest .toEven number).power.toNat < 15 := by
        have le := Nat.le_mul_of_pos_left (10 ^ (shortest .toEven number).power.toNat) positive
        exact (Nat.pow_lt_pow_iff_right (show 1 < 10 by decide)).mp (by omega)
      refine ⟨?_, ?_⟩
      · rw [digits]
        omega
      · rw [exponent]
        omega
    · refine ⟨?_, by rw [exponent]; decide⟩
      rw [digits, pow_succ, ← mul_assoc]
      omega

theorem reread_of_isSmallInteger (small : number.IsSmallInteger) : reread number = .ok number := by
  obtain ⟨finite, whole, size, lt⟩ := small
  exact reread_of_isShort finite (isShort_of_whole size lt)

end Json

end TableKernels
