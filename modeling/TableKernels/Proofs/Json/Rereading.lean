import TableKernels.Proofs.Json.Floats

/-!
# Numbers that come back

The digits of a text that are exact in binary, scaled by a power of ten that is exact as well, are
rounded once, to the number that was written. Longer digits or larger powers are rounded before they
are put together, so the number may be missed; but it is never refused, and what is read is finite.
-/

namespace TableKernels.Json

open Binary64 Decimal

variable {number : Binary64} {word : ℕ} {power : ℤ}

/-! ## Exact numbers -/

theorem lt_overflowBound {value : ℚ} (small : value < 2 ^ 200) : value < overflowBound := by
  have unit : (2 : ℚ) ^ 200 ≤ 2 ^ (971 : ℤ) := by
    rw [← zpow_natCast]
    exact zpow_le_zpow_right₀ (by norm_num) (by norm_num)
  have pos : (0 : ℚ) < 2 ^ (971 : ℤ) := by positivity
  rw [overflowBound]
  generalize (2 : ℚ) ^ (971 : ℤ) = last at *
  linarith

theorem size_ofRatio_natural {digits power : ℕ} (pos : 0 < digits) (small : digits < 2 ^ 53)
    (le : power ≤ 100) :
    (ofRatio false (digits * 2 ^ power) 1).size = (digits * 2 ^ power : ℕ) ∧
      (ofRatio false (digits * 2 ^ power) 1).isNegative = false := by
  have bound : ((digits * 2 ^ power : ℕ) : ℚ) < 2 ^ 200 := by
    have : digits * 2 ^ power < 2 ^ 200 := calc
      digits * 2 ^ power < 2 ^ 53 * 2 ^ power :=
        Nat.mul_lt_mul_of_pos_right small (Nat.pow_pos (by decide))
      _ = 2 ^ (53 + power) := (Nat.pow_add ..).symm
      _ ≤ 2 ^ 200 := Nat.pow_le_pow_right (by decide) (by omega)
    exact_mod_cast this
  obtain ⟨sign, scale, whole, rounds⟩ := exists_rounds false
    (Nat.mul_pos pos (Nat.pow_pos (n := power) (show 0 < 2 by decide))) one_pos
    (lt_overflowBound (by rwa [Nat.cast_one, div_one]))
  have exact := rounds.exact small (show (-1074 : ℤ) ≤ power by omega) (by
    push_cast
    rw [div_one, zpow_natCast])
  refine ⟨?_, sign⟩
  rw [exact]
  push_cast
  rw [div_one]

theorem size_zero : (ofInt 0).size = 0 ∧ (ofInt 0).isNegative = false := by
  have zero : ofInt 0 = ⟨0⟩ := rfl
  rw [zero]
  constructor
  · have none : (⟨0⟩ : Binary64).significand = 0 := by decide
    rw [size, none, Nat.cast_zero, zero_mul]
  · decide

theorem size_ofInt (small : word < 2 ^ 53) :
    (ofInt word).size = word ∧ (ofInt word).isNegative = false := by
  rcases Nat.eq_zero_or_pos word with rfl | pos
  · exact_mod_cast size_zero
  · have natural : ofInt word = ofRatio false (word * 2 ^ 0) 1 := by
      have sign : decide ((word : ℤ) < 0) = false := decide_eq_false (by omega)
      rw [ofInt, sign, Int.natAbs_natCast, Nat.pow_zero, Nat.mul_one]
    rw [natural]
    have exact := size_ofRatio_natural pos small (show 0 ≤ 100 by decide)
    rwa [Nat.pow_zero, Nat.mul_one] at exact ⊢

theorem size_tenPower {power : ℕ} (le : power ≤ 22) :
    (tenPower power).size = 10 ^ power ∧ (tenPower power).isNegative = false := by
  -- Up to the twenty-second power the odd part of a power of ten fits in a significand.
  have five : 5 ^ power < 2 ^ 53 :=
    (Nat.pow_le_pow_right (by decide) le).trans_lt (by decide)
  have split : Nat.pow 10 power = 5 ^ power * 2 ^ power := by
    rw [← Nat.mul_pow]
    rfl
  obtain ⟨exact, sign⟩ := size_ofRatio_natural (Nat.pow_pos (by decide)) five
    (show power ≤ 100 by omega)
  rw [tenPower, split]
  refine ⟨?_, sign⟩
  rw [exact, ← Nat.mul_pow]
  norm_num

/-! ## A single rounding -/

theorem significand_pos_of_size {number : Binary64} (pos : 0 < number.size) :
    0 < number.significand := by
  rcases Nat.eq_zero_or_pos number.significand with none | some
  · rw [size, none, Nat.cast_zero, zero_mul] at pos
    exact absurd pos (lt_irrefl 0)
  · exact some

/-- Exact digits with an exact power of ten are rounded once. -/
theorem scale_of_nearest (finite : number.isFinite = true) (small : word < 2 ^ 53)
    (near : power.natAbs ≤ 22) (nearest : number.Nearest (word * 10 ^ power)) :
    scale (.ofInt word) power = some (ofMagnitude false number.magnitude) := by
  obtain ⟨wordSize, wordSign⟩ := size_ofInt small
  obtain ⟨tenSize, tenSign⟩ := size_tenPower near
  have ten_pos : 0 < (tenPower power.natAbs).significand := by
    apply significand_pos_of_size
    rw [tenSize]
    positivity
  rw [scale, if_pos (near.trans (by decide))]
  split
  · next nonneg =>
    obtain ⟨numerator, denominator, pos, ratio, product⟩ :=
      mul_eq (.ofInt word) (tenPower power.natAbs)
    have value : (numerator : ℚ) / denominator = word * 10 ^ power := by
      rw [ratio, wordSize, tenSize, ← zpow_natCast, Int.natCast_natAbs, abs_of_nonneg nonneg]
    rw [← value] at nearest
    rw [product, wordSign, tenSign, ofRatio, magnitudeWord_of_nearest finite pos nearest]
    have stays : (ofMagnitude false number.magnitude).isFinite = true := by
      have lt := magnitude_lt finite
      rw [isFinite, (ofMagnitude_parts false lt).2.1, bne_iff_ne]
      simp only [infinityWord, fractionCount] at lt
      omega
    exact if_pos stays
  · next negative =>
    obtain ⟨numerator, denominator, pos, ratio, quotient⟩ :=
      div_eq (.ofInt word) ten_pos
    have value : (numerator : ℚ) / denominator = word * 10 ^ power := by
      rw [ratio, wordSize, tenSize, ← zpow_natCast, Int.natCast_natAbs,
        abs_of_neg (not_le.mp negative), zpow_neg, div_inv_eq_mul]
    rw [← value] at nearest
    rw [quotient, wordSign, tenSign, ofRatio, magnitudeWord_of_nearest finite pos nearest]
    rfl

theorem xor_signBit {word : ℕ} (small : word < 2 ^ 63) : word ^^^ 2 ^ 63 = 2 ^ 63 + word := by
  apply Nat.eq_of_testBit_eq
  intro place
  rw [Nat.testBit_xor, Nat.testBit_two_pow]
  rcases lt_trichotomy place 63 with less | rfl | more
  · rw [Nat.testBit_two_pow_add_gt less, decide_eq_false (by omega), Bool.xor_false]
  · rw [Nat.testBit_two_pow_add_eq, decide_eq_true rfl, Bool.xor_true]
  · have beyond : 2 ^ 63 + word < 2 ^ place :=
      lt_of_lt_of_le (by omega : 2 ^ 63 + word < 2 ^ 64) (Nat.pow_le_pow_right (by decide) more)
    rw [Nat.testBit_lt_two_pow beyond, Nat.testBit_lt_two_pow (by omega),
      decide_eq_false (by omega)]
    rfl

theorem signed_magnitude (number : Binary64) :
    (if number.isNegative = true then (ofMagnitude false number.magnitude).negate
      else ofMagnitude false number.magnitude) = number := by
  have small : number.magnitude < 2 ^ 63 := Nat.mod_lt _ (by decide)
  have flipped : (ofMagnitude false number.magnitude).negate =
      ofMagnitude true number.magnitude := by
    simp only [ofMagnitude, negate, Bool.false_eq_true, if_false, if_true]
    congr 1
    apply UInt64.toNat.inj
    have word : (UInt64.ofNat number.magnitude).toNat = number.magnitude := by
      rw [UInt64.toNat_ofNat', Nat.mod_eq_of_lt (by omega)]
    rw [UInt64.toNat_xor, word, UInt64.toNat_ofNat', Nat.mod_eq_of_lt (by omega)]
    exact xor_signBit small
  have whole := number.ofMagnitude_magnitude
  split
  · next negative => rwa [negative, ← flipped] at whole
  · next positive => rwa [Bool.eq_false_iff.mpr positive] at whole

/-- What is read of a text is its decimal, scaled, with its sign. -/
theorem reread_eq_scale (finite : number.isFinite = true)
    (small : ((floatParts number).literal number.isNegative).digits ≤ wordMax) {size : Binary64}
    (scaled : scale (.ofInt ((floatParts number).literal number.isNegative).digits)
      ((floatParts number).literal number.isNegative).exponent = some size) :
    reread number = .ok (if number.isNegative = true then size.negate else size) := by
  rw [reread_eq finite, numeral_floatParts, float_eq small, scaled]
  rfl

/-- The digits of the text are exact in binary, and so is the power of ten that goes with them. -/
def IsShort (number : Binary64) : Prop :=
  let literal := (floatParts number).literal number.isNegative
  literal.digits < 2 ^ 53 ∧ literal.exponent.natAbs ≤ 22

theorem reread_of_isShort (finite : number.isFinite = true) (short : IsShort number) :
    reread number = .ok number := by
  obtain ⟨small, near⟩ := short
  have nearest := nearest_floatParts number number.isNegative
  have scaled := scale_of_nearest finite small near nearest
  rw [reread_eq_scale finite (small.le.trans (by decide)) scaled, signed_magnitude]

end TableKernels.Json
