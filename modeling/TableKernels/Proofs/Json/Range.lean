import TableKernels.Proofs.Json.Rereading

/-!
# Numbers stay in range

Whatever number is written, its text is read as some finite number. Quotients cannot leave the
range, and the roundings of a product add up to less than what is left above it, except for the two
greatest numbers, which are looked at one by one.
-/

namespace TableKernels.Json

open Binary64 Decimal

variable {number : Binary64} {numerator denominator word : ℕ} {power : ℤ}

/-! ## Rough bounds -/

/-- A rounded quotient is finite and at most about twice as large. -/
theorem ofRatio_le (negative : Bool) (pos : 0 < denominator)
    (bound : (numerator : ℚ) / denominator < overflowBound) :
    (ofRatio negative numerator denominator).isFinite = true ∧
      (ofRatio negative numerator denominator).size ≤ 2 * (numerator / denominator) + 1 := by
  rcases Nat.eq_zero_or_pos numerator with rfl | above
  · have zero : ofRatio negative 0 denominator = ofMagnitude negative 0 := rfl
    have nothing : (ofMagnitude negative 0).significand = 0 := by
      cases negative <;> decide
    rw [zero, Binary64.size, nothing]
    refine ⟨by cases negative <;> decide, ?_⟩
    rw [Nat.cast_zero, zero_mul, zero_div]
    norm_num
  · obtain ⟨_, scale, whole, rounds⟩ := exists_rounds negative above pos bound
    refine ⟨rounds.finite, ?_⟩
    have nonneg : (0 : ℚ) ≤ numerator / denominator := by positivity
    have unit : (2 : ℚ) ^ scale ≤ 1 + numerator / denominator := by
      rcases rounds.isScale.le with rfl | normal
      · have : (2 : ℚ) ^ (-1074 : ℤ) ≤ 1 :=
          zpow_le_one_of_nonpos₀ (by norm_num) (by norm_num)
        linarith
      · have : (0 : ℚ) < 2 ^ scale := by positivity
        linarith
    have lower := rounds.lower
    rw [rounds.size]
    linarith

theorem le_ofRatio (negative : Bool) (pos : 0 < denominator)
    (least : 1 ≤ (numerator : ℚ) / denominator)
    (bound : (numerator : ℚ) / denominator < overflowBound) :
    1 / 2 ≤ (ofRatio negative numerator denominator).size := by
  have above : 0 < numerator := by
    rcases Nat.eq_zero_or_pos numerator with rfl | above
    · rw [Nat.cast_zero, zero_div] at least
      norm_num at least
    · exact above
  obtain ⟨_, scale, whole, rounds⟩ := exists_rounds negative above pos bound
  have unit : (2 : ℚ) ^ scale ≤ numerator / denominator := by
    rcases rounds.isScale.le with rfl | normal
    · exact (zpow_le_one_of_nonpos₀ (by norm_num) (by norm_num)).trans least
    · have : (0 : ℚ) < 2 ^ scale := by positivity
      linarith
  have upper := rounds.upper
  rw [rounds.size]
  linarith

theorem ten_pow_lt {greatest bits power : ℕ} (le : power ≤ greatest)
    (most : 2 * 10 ^ greatest + 2 ^ bits < 2 ^ 54 * 2 ^ bits) :
    (10 : ℚ) ^ power < (2 ^ 53 - 1 / 2) * 2 ^ (bits : ℤ) := by
  have more := Nat.pow_le_pow_right (show 0 < 10 by decide) le
  have less : 2 * 10 ^ power + 2 ^ bits < 2 ^ 54 * 2 ^ bits := by omega
  have cast : (2 : ℚ) * 10 ^ power + 2 ^ bits < 2 ^ 54 * 2 ^ bits := by exact_mod_cast less
  rw [zpow_natCast]
  linarith

theorem ten_lt_overflowBound {power : ℕ} (le : power ≤ 308) :
    (10 : ℚ) ^ power < overflowBound :=
  ten_pow_lt le (by decide +kernel)

theorem tenPower_bounds {power : ℕ} (le : power ≤ 308) :
    1 / 2 ≤ (tenPower power).size ∧
      (tenPower power).size ≤ 10 ^ power * (1 + 1 / 2 ^ 53) := by
  have value : ((Nat.pow 10 power : ℕ) : ℚ) / (1 : ℕ) = 10 ^ power := by
    rw [Nat.cast_one, div_one, Nat.pow_eq, Nat.cast_pow, Nat.cast_ofNat]
  have bound := ten_lt_overflowBound le
  have least : (1 : ℚ) ≤ 10 ^ power := one_le_pow₀ (by norm_num)
  rw [← value] at bound least ⊢
  refine ⟨le_ofRatio false one_pos least bound, ?_⟩
  obtain ⟨_, scale, whole, rounds⟩ := exists_rounds false
    (Nat.pow_pos (n := power) (show 0 < 10 by decide)) one_pos bound
  refine rounds.size_le (le_trans ?_ least)
  exact zpow_le_one_of_nonpos₀ (by norm_num) (by norm_num)

theorem ofInt_bounds (small : word < 2 ^ 64) :
    (ofInt word).isFinite = true ∧ (ofInt word).size ≤ word * (1 + 1 / 2 ^ 53) := by
  rcases Nat.eq_zero_or_pos word with rfl | pos
  · refine ⟨rfl, ?_⟩
    simp only [Nat.cast_zero, zero_mul]
    exact size_zero.1.le
  · have natural : ofInt word = ofRatio false word 1 := by
      have sign : decide ((word : ℤ) < 0) = false := decide_eq_false (by omega)
      rw [ofInt, sign, Int.natAbs_natCast]
    have value : (word : ℚ) / (1 : ℕ) = word := by rw [Nat.cast_one, div_one]
    have least : (1 : ℚ) ≤ word := by exact_mod_cast pos
    have most : (word : ℚ) < 2 ^ 64 := by exact_mod_cast small
    obtain ⟨_, scale, whole, rounds⟩ := exists_rounds false pos one_pos
      (lt_overflowBound (by rw [value]; linarith))
    rw [natural]
    refine ⟨rounds.finite, ?_⟩
    rw [value] at rounds
    refine rounds.size_le (le_trans ?_ least)
    exact zpow_le_one_of_nonpos₀ (by norm_num) (by norm_num)

theorem div_tenPower {left : Binary64} {power : ℕ} (le : power ≤ 308)
    (small : left.size ≤ 2 ^ 100) :
    (left.div (tenPower power)).isFinite = true ∧
      (left.div (tenPower power)).size ≤ 4 * left.size + 1 := by
  obtain ⟨half, _⟩ := tenPower_bounds le
  have pos : 0 < (tenPower power).significand := significand_pos_of_size (by linarith)
  obtain ⟨numerator, denominator, above, ratio, quotient⟩ := div_eq left pos
  have nonneg : 0 ≤ left.size := by
    rw [Binary64.size]
    positivity
  have double : left.size / (tenPower power).size ≤ 2 * left.size := by
    rw [div_le_iff₀ (by linarith)]
    nlinarith
  rw [quotient]
  have bounds := ofRatio_le (left.isNegative != (tenPower power).isNegative) above
    (lt_overflowBound (by rw [ratio]; linarith))
  rw [ratio] at bounds
  exact ⟨bounds.1, by linarith [bounds.2]⟩

/-! ## Scaling -/

/-- Half a unit above the third number from the greatest. -/
def productBound : ℚ := (2 ^ 53 - 5 / 2) * 2 ^ (971 : ℤ)

/-- Two factors that are each rounded up leave the product within the range. -/
theorem product_lt_overflowBound {first second size : ℚ} (bound : first * second ≤ productBound)
    (le : size ≤ first * second * (1 + 1 / 2 ^ 53) ^ 2) : size < overflowBound := by
  have unit : (0 : ℚ) < 2 ^ (971 : ℤ) := by positivity
  rw [productBound] at bound
  rw [overflowBound]
  have grown := mul_le_mul_of_nonneg_right bound (show (0 : ℚ) ≤ (1 + 1 / 2 ^ 53) ^ 2 by positivity)
  refine (le.trans grown).trans_lt ?_
  rw [mul_right_comm]
  exact mul_lt_mul_of_pos_right (by norm_num) unit

theorem cast_pow_le (first second left right : ℕ) (le : first ^ left ≤ second ^ right) :
    (first : ℚ) ^ (left : ℤ) ≤ (second : ℚ) ^ (right : ℤ) := by
  rw [zpow_natCast, zpow_natCast]
  exact_mod_cast le

/-- No decimal within the range has a power of ten above the table. -/
theorem productBound_lt {power : ℤ} (pos : 0 < word) (far : 309 ≤ power) :
    productBound < word * 10 ^ power := by
  have ten : (2 : ℚ) ^ (1024 : ℤ) ≤ 10 ^ (309 : ℤ) :=
    cast_pow_le 2 10 1024 309 (by decide +kernel)
  have more : (10 : ℚ) ^ (309 : ℤ) ≤ 10 ^ power := zpow_le_zpow_right₀ (by norm_num) far
  have one : (1 : ℚ) ≤ word := by exact_mod_cast pos
  have split : (2 : ℚ) ^ (1024 : ℤ) = 2 ^ 53 * 2 ^ (971 : ℤ) := by
    rw [← zpow_natCast 2 53, ← zpow_add₀ two_ne_zero]
    norm_num
  have unit : (0 : ℚ) < 2 ^ (971 : ℤ) := by positivity
  have scaled := mul_le_mul_of_nonneg_right one (show (0 : ℚ) ≤ 10 ^ power by positivity)
  rw [split] at ten
  rw [productBound]
  generalize (2 : ℚ) ^ (971 : ℤ) = last at *
  generalize (10 : ℚ) ^ (309 : ℤ) = first at *
  linarith only [ten, more, scaled, unit]

/-- Digits that fit a word are scaled to a finite number, unless their decimal is too large. -/
theorem scale_isSome (small : word < 2 ^ 64) (least : -600 ≤ power)
    (bound : word * 10 ^ power ≤ productBound) :
    ∃ size, scale (.ofInt word) power = some size ∧ size.isFinite = true := by
  obtain ⟨finite, wordSize⟩ := ofInt_bounds small
  have most : (ofInt word).size ≤ 2 ^ 66 := by
    have : (word : ℚ) < 2 ^ 64 := by exact_mod_cast small
    linarith
  rw [scale]
  split
  · next near =>
    obtain ⟨tenLeast, tenSize⟩ := tenPower_bounds near
    split
    · next nonneg =>
      obtain ⟨numerator, denominator, above, ratio, product⟩ :=
        mul_eq (.ofInt word) (tenPower power.natAbs)
      have stays : ((ofInt word).mul (tenPower power.natAbs)).isFinite = true := by
        rw [product]
        refine (ofRatio_le _ above (product_lt_overflowBound bound ?_)).1
        have ten : (10 : ℚ) ^ power = 10 ^ power.natAbs := by
          rw [← zpow_natCast, Int.natCast_natAbs, abs_of_nonneg nonneg]
        rw [ratio, ten]
        refine (mul_le_mul wordSize tenSize (by linarith) (by positivity)).trans (le_of_eq ?_)
        ring
      exact ⟨_, if_pos stays, stays⟩
    · exact ⟨_, rfl, (div_tenPower near (by linarith)).1⟩
  -- Beyond the table digits other than zero have a negative power, which is taken in two steps.
  · next far =>
    split
    · exact ⟨_, rfl, finite⟩
    · next nonzero =>
      have below : power < 0 := by
        by_contra nonneg
        have pos : 0 < word := by
          refine Nat.pos_of_ne_zero ?_
          rintro rfl
          exact nonzero (by decide)
        exact absurd bound (not_le.mpr (productBound_lt pos (by omega)))
      rw [if_neg (not_le.mpr below)]
      obtain ⟨_, size⟩ := div_tenPower (le_refl 308)
        (show (ofInt word).size ≤ 2 ^ 100 by linarith)
      rw [scale, if_pos (by omega), if_neg (by omega)]
      exact ⟨_, rfl, (div_tenPower (by omega) (by linarith)).1⟩

/-! ## Every number is read -/

theorem isFinite_negate (number : Binary64) : number.negate.isFinite = number.isFinite := by
  have exponent : (number.bits.toNat ^^^ 2 ^ 63) / 2 ^ 52 % 2 ^ 11 =
      number.bits.toNat / 2 ^ 52 % 2 ^ 11 := by
    rw [Nat.xor_div_two_pow, Nat.xor_mod_two_pow]
    exact Nat.xor_zero _
  have bits : number.negate.bits.toNat = number.bits.toNat ^^^ 2 ^ 63 := UInt64.toNat_xor _ _
  rw [isFinite, isFinite, biasedExponent, biasedExponent, bits]
  exact congrArg (· != 2047) exponent

theorem exists_reread_of_scale (finite : number.isFinite = true)
    (small : ((floatParts number).literal number.isNegative).digits ≤ wordMax)
    (scaled : ∃ size, scale (.ofInt ((floatParts number).literal number.isNegative).digits)
      ((floatParts number).literal number.isNegative).exponent = some size ∧
        size.isFinite = true) :
    ∃ value, reread number = .ok value ∧ value.isFinite = true := by
  obtain ⟨size, same, sizeFinite⟩ := scaled
  refine ⟨_, reread_eq_scale finite small same, ?_⟩
  split
  · exact (isFinite_negate size).trans sizeFinite
  · exact sizeFinite

theorem decimal_bounds (number : Binary64) (negative : Bool) :
    ((floatParts number).literal negative).digits ≤ 10 ^ 17 ∧
      -400 ≤ ((floatParts number).literal negative).exponent := by
  cases zero : number.isZero with
  | false =>
    rcases decimal_floatParts zero negative with
      ⟨digits, exponent⟩ | ⟨_, _, le, exponent⟩
    · rw [digits, exponent]
      exact ⟨shortest_le .toEven zero, (shortest_isModest number .toEven).least⟩
    · exact ⟨le, by omega⟩
  | true =>
    rw [floatParts, if_pos zero]
    exact ⟨Nat.zero_le _, show (-400 : ℤ) ≤ -1 by decide⟩

/-- What rounds to any but the two greatest numbers leaves room for two roundings. -/
theorem le_productBound {value : ℚ} (near : number.Nearest value)
    (less : number.magnitude < 0x7feffffffffffffe) : value ≤ productBound := by
  obtain ⟨_, upper, _⟩ := near.half
  have unit : (0 : ℚ) < 2 ^ number.exponent := by positivity
  have last : (0 : ℚ) < 2 ^ (971 : ℤ) := by positivity
  have fraction := number.fraction_lt
  rw [magnitude_eq] at less
  simp only [fractionCount] at less
  have small : number.significand + 1 ≤ 2 ^ 53 := by
    rcases number.exponent_cases with ⟨_, _, size⟩ | ⟨_, _, size⟩ <;> omega
  rcases lt_trichotomy number.exponent 971 with below | same | above
  · have half := double_zpow_le below
    have most : (number.significand : ℚ) + 1 ≤ 2 ^ 53 := by exact_mod_cast small
    have scaled := mul_le_mul_of_nonneg_right most unit.le
    rw [productBound]
    generalize (2 : ℚ) ^ (971 : ℤ) = largest at *
    linarith
  · have most : number.significand + 3 ≤ 2 ^ 53 := by omega
    have most : (number.significand : ℚ) + 3 ≤ 2 ^ 53 := by exact_mod_cast most
    have scaled := mul_le_mul_of_nonneg_right most last.le
    rw [same] at upper
    rw [productBound]
    generalize (2 : ℚ) ^ (971 : ℤ) = largest at *
    linarith
  · rcases number.exponent_cases with ⟨_, _, _⟩ | ⟨_, _, _⟩ <;> omega

/-- The two greatest numbers are read. -/
theorem exists_reread_greatest (finite : number.isFinite = true)
    (greatest : 0x7feffffffffffffe ≤ number.magnitude) :
    ∃ value, reread number = .ok value ∧ value.isFinite = true := by
  have bound := magnitude_lt finite
  simp only [infinityWord, fractionCount] at bound
  -- Their digits and powers are computed, and the two products that come of them.
  have decimals : ∀ negative : Bool, ∀ word ∈ [0x7feffffffffffffe, 0x7fefffffffffffff],
      ((floatParts (ofMagnitude negative word)).literal negative).exponent = 292 ∧
        ((floatParts (ofMagnitude negative word)).literal negative).digits ∈
          [17976931348623155, 17976931348623157] := by
    decide
  have products : ∀ word ∈ [17976931348623155, 17976931348623157],
      ((ofInt (word : ℕ)).mul (tenPower 292)).isFinite = true ∧ word ≤ wordMax := by
    decide +kernel
  have mem : number.magnitude ∈ [0x7feffffffffffffe, 0x7fefffffffffffff] := by
    simp only [List.mem_cons, List.not_mem_nil, or_false]
    omega
  have decimal := decimals number.isNegative number.magnitude mem
  rw [number.ofMagnitude_magnitude] at decimal
  obtain ⟨stays, small⟩ := products _ decimal.2
  refine exists_reread_of_scale finite small ⟨_, ?_, stays⟩
  rw [decimal.1, scale, if_pos (by decide), if_pos (by decide)]
  exact if_pos stays

/-- Every finite number is read as some finite number. -/
theorem exists_reread (finite : number.isFinite = true) :
    ∃ value, reread number = .ok value ∧ value.isFinite = true := by
  rcases Nat.lt_or_ge number.magnitude 0x7feffffffffffffe with less | greatest
  · obtain ⟨small, least⟩ := decimal_bounds number number.isNegative
    refine exists_reread_of_scale finite (small.trans (by decide)) ?_
    exact scale_isSome (small.trans_lt (by decide)) (by omega)
      (le_productBound (nearest_floatParts number number.isNegative) less)
  · exact exists_reread_greatest finite greatest

end TableKernels.Json
