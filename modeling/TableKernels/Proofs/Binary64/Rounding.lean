import Mathlib
import TableKernels.Binary64

/-!
# Rounding

A quotient is rounded once: it is brought to a power of two at which it has at most fifty-three
bits, and there to the nearest integer. What comes out has the size of that integer at that power.
So an exact quotient stays as it is, and any other moves by at most half a unit of the power.
-/

namespace TableKernels.Binary64

variable {number : Binary64} {numerator denominator : ℕ}

/-- The size of a finite number. -/
def size (number : Binary64) : ℚ := number.significand * 2 ^ number.exponent

/-- The word of a number without its sign. -/
def magnitude (number : Binary64) : ℕ := number.bits.toNat % 0x8000000000000000

/-! ## The parts of a number -/

theorem exponent_cases (number : Binary64) :
    (number.biasedExponent = 0 ∧ number.exponent = -1074 ∧
      number.significand = number.fraction) ∨
    (0 < number.biasedExponent ∧ number.exponent = number.biasedExponent - 1075 ∧
      number.significand = 2 ^ 52 + number.fraction) := by
  unfold exponent significand
  split
  · next zero => exact .inl ⟨zero, rfl, rfl⟩
  · next other => exact .inr ⟨by omega, rfl, rfl⟩

theorem fraction_lt (number : Binary64) : number.fraction < 2 ^ 52 :=
  Nat.mod_lt _ (by decide)

theorem magnitude_eq (number : Binary64) :
    number.magnitude = (number.exponent + 1074).toNat * fractionCount + number.significand := by
  have bits := number.bits.toNat_lt
  have word : number.magnitude = number.biasedExponent * 2 ^ 52 + number.fraction := by
    simp only [magnitude, biasedExponent, fraction, fractionCount]
    omega
  rcases number.exponent_cases with ⟨zero, power, size⟩ | ⟨some, power, size⟩
  · rw [word, zero, power, size]
    simp
  · rw [word, power, size]
    simp only [fractionCount]
    omega

theorem magnitude_lt (finite : number.isFinite = true) : number.magnitude < infinityWord := by
  simp only [isFinite, bne_iff_ne, ne_eq, biasedExponent, fractionCount] at finite
  simp only [magnitude, infinityWord, fractionCount]
  omega

/-- A number is its sign and its word without the sign. -/
theorem ofMagnitude_magnitude (number : Binary64) :
    ofMagnitude number.isNegative number.magnitude = number := by
  have bits := number.bits.toNat_lt
  obtain ⟨word⟩ := number
  rw [ofMagnitude]
  congr 1
  apply UInt64.toNat.inj
  simp only [isNegative, magnitude, decide_eq_true_eq] at bits ⊢
  rw [UInt64.toNat_ofNat']
  split <;> omega

/-! ## Powers of two moved out of a quotient -/

theorem cast_raised (number : ℕ) (power : ℤ) :
    (raised number power : ℚ) = number * 2 ^ power.toNat := by
  rw [raised, Nat.shiftLeft_eq]
  push_cast
  rfl

theorem two_zpow (power : ℤ) : (2 : ℚ) ^ power = 2 ^ power.toNat / 2 ^ (-power).toNat := by
  obtain ⟨count, rfl | rfl⟩ := power.eq_nat_or_neg
  · simp
  · simp

theorem two_zpow_eq_double (power : ℤ) : (2 : ℚ) ^ power = 2 * 2 ^ (power - 1) := by
  rw [← zpow_one_add₀ two_ne_zero, add_sub_cancel]

theorem double_zpow_le {small large : ℤ} (lt : small < large) :
    (2 : ℚ) * 2 ^ small ≤ 2 ^ large := by
  rw [← zpow_one_add₀ two_ne_zero]
  exact zpow_le_zpow_right₀ (by norm_num) (by omega)

theorem raised_div_raised (numerator denominator : ℕ) (power : ℤ) :
    (raised numerator (-power) : ℚ) / raised denominator power =
      numerator / denominator / 2 ^ power := by
  rw [cast_raised, cast_raised, two_zpow]
  field_simp

theorem raised_pos {number : ℕ} (pos : 0 < number) (power : ℤ) : 0 < raised number power := by
  rw [raised, Nat.shiftLeft_eq]
  positivity

/-! ## The nearest integer -/

/-- The nearest integer to a quotient, and the even one if two are as near. -/
structure IsRounded (quotient : ℚ) (nearest : ℕ) : Prop where
  lower : (nearest : ℚ) - 1 / 2 ≤ quotient
  upper : quotient ≤ nearest + 1 / 2
  tie : (nearest : ℚ) - 1 / 2 = quotient ∨ quotient = nearest + 1 / 2 → nearest % 2 = 0

theorem IsRounded.unique {quotient : ℚ} {first second : ℕ} (left : IsRounded quotient first)
    (right : IsRounded quotient second) : first = second := by
  have one {first second : ℕ} (left : IsRounded quotient first)
      (right : IsRounded quotient second) : ¬ first < second := by
    intro less
    have apart : (first : ℚ) + 1 ≤ second := by exact_mod_cast less
    have below := left.upper
    have above := right.lower
    -- Only neighbours can both be as near, and then one of them is odd.
    have next : second = first + 1 := by
      have : (second : ℚ) = (first + 1 : ℕ) := by
        push_cast
        linarith
      exact_mod_cast this
    have first_even := left.tie (.inr (by linarith))
    have second_even := right.tie (.inl (by linarith))
    omega
  have forth := one left right
  have back := one right left
  omega

theorem roundHalfEven_isRounded (numerator : ℕ) (pos : 0 < denominator) :
    IsRounded (numerator / denominator) (roundHalfEven numerator denominator) := by
  have parts := Nat.div_add_mod numerator denominator
  have left := Nat.mod_lt numerator pos
  rw [roundHalfEven]
  generalize numerator / denominator = floor at parts ⊢
  generalize numerator % denominator = rest at parts left ⊢
  subst parts
  have denominator_pos : (0 : ℚ) < denominator := by exact_mod_cast pos
  -- The quotient is its floor and a part of which only the side of a half counts.
  have value : ((denominator * floor + rest : ℕ) : ℚ) / denominator =
      floor + rest / denominator := by
    push_cast
    rw [add_div, mul_div_cancel_left₀ _ denominator_pos.ne']
  have part_nonneg : (0 : ℚ) ≤ rest / denominator := by positivity
  have part_lt : (rest : ℚ) / denominator < 1 := by
    rw [div_lt_one denominator_pos]
    exact_mod_cast left
  have half_le : (1 / 2 : ℚ) ≤ rest / denominator ↔ denominator ≤ 2 * rest := by
    rw [div_le_div_iff₀ two_pos denominator_pos, one_mul, mul_comm]
    exact_mod_cast Iff.rfl
  have le_half : (rest : ℚ) / denominator ≤ 1 / 2 ↔ 2 * rest ≤ denominator := by
    rw [div_le_div_iff₀ denominator_pos two_pos, one_mul, mul_comm]
    exact_mod_cast Iff.rfl
  rw [value]
  split
  · next up =>
    simp only [Bool.or_eq_true, decide_eq_true_eq, Bool.and_eq_true, beq_iff_eq] at up
    have above := half_le.mpr (by omega)
    refine ⟨?_, ?_, ?_⟩
    · push_cast
      linarith
    · push_cast
      linarith
    · rintro (midway | midway) <;> push_cast at midway
      · have := le_half.mp (by linarith)
        omega
      · linarith
  · next down =>
    simp only [Bool.or_eq_true, decide_eq_true_eq, Bool.and_eq_true, beq_iff_eq] at down
    have below := le_half.mpr (by omega)
    refine ⟨by linarith, by linarith, ?_⟩
    rintro (midway | midway)
    · linarith
    · have := half_le.mp (by linarith)
      omega

/-! ## The power of two -/

/-- The power of two at which a positive number has fifty-three bits, or the least power. -/
structure IsScale (value : ℚ) (scale : ℤ) : Prop where
  least : -1074 ≤ scale
  lt : value < 2 ^ 53 * 2 ^ scale
  le : scale = -1074 ∨ 2 ^ 52 * 2 ^ scale ≤ value

theorem IsScale.unique {value : ℚ} {first second : ℤ} (left : IsScale value first)
    (right : IsScale value second) : first = second := by
  have one {first second : ℤ} (left : IsScale value first) (right : IsScale value second) :
      ¬ first < second := by
    intro less
    have more := double_zpow_le less
    have below := left.lt
    have above := right.le.resolve_left (by have := left.least; omega)
    linarith
  have forth := one left right
  have back := one right left
  omega

theorem cast_log2_bounds {number : ℕ} (pos : 0 < number) :
    (2 : ℚ) ^ (number.log2 : ℤ) ≤ number ∧ (number : ℚ) < 2 * 2 ^ (number.log2 : ℤ) := by
  have le := Nat.log2_self_le (Nat.pos_iff_ne_zero.mp pos)
  have lt := Nat.lt_log2_self (n := number)
  rw [pow_succ] at lt
  rw [zpow_natCast]
  constructor
  · exact_mod_cast le
  · rw [mul_comm]
    exact_mod_cast lt

theorem scaleOf_isScale (above : 0 < numerator) (pos : 0 < denominator) :
    IsScale (numerator / denominator) (scaleOf numerator denominator) := by
  -- The difference of the two logarithms is right or one too large. `short` is the comparison
  -- that tells which, read as a statement about the quotient.
  obtain ⟨guess, defined⟩ : ∃ guess : ℤ,
      guess = (numerator.log2 : ℤ) - denominator.log2 - 52 := ⟨_, rfl⟩
  obtain ⟨le, lt⟩ := cast_log2_bounds above
  obtain ⟨le', lt'⟩ := cast_log2_bounds pos
  have denominator_pos : (0 : ℚ) < denominator := by exact_mod_cast pos
  have unit : (0 : ℚ) < 2 ^ guess := by positivity
  have split : (2 : ℚ) ^ (numerator.log2 : ℤ) =
      2 ^ 52 * 2 ^ guess * 2 ^ (denominator.log2 : ℤ) := by
    rw [← zpow_natCast 2 52, ← zpow_add₀ two_ne_zero, ← zpow_add₀ two_ne_zero, defined]
    congr 1
    push_cast
    ring
  have upper : (numerator : ℚ) / denominator < 2 ^ 53 * 2 ^ guess := by
    rw [div_lt_iff₀ denominator_pos]
    nlinarith
  have lower : 2 ^ 51 * 2 ^ guess ≤ (numerator : ℚ) / denominator := by
    rw [le_div_iff₀ denominator_pos]
    nlinarith
  have short : raised numerator (-guess) < fractionCount * raised denominator guess ↔
      (numerator : ℚ) / denominator < 2 ^ 52 * 2 ^ guess := by
    have raised_denominator : (0 : ℚ) < raised denominator guess := by
      exact_mod_cast raised_pos pos guess
    have ratio := raised_div_raised numerator denominator guess
    rw [← div_lt_iff₀ unit, ← ratio, div_lt_iff₀ raised_denominator]
    simp only [fractionCount]
    norm_cast
  have half := two_zpow_eq_double guess
  obtain ⟨normal, same⟩ : ∃ normal : ℤ, normal =
      if raised numerator (-guess) < fractionCount * raised denominator guess then guess - 1
      else guess := ⟨_, rfl⟩
  have result : scaleOf numerator denominator = max normal (-1074) := by
    rw [same, defined]
    rfl
  have normal_lt : (numerator : ℚ) / denominator < 2 ^ 53 * 2 ^ normal := by
    rw [same]
    split
    · next less => linarith [short.mp less]
    · exact upper
  have normal_le : 2 ^ 52 * 2 ^ normal ≤ (numerator : ℚ) / denominator := by
    rw [same]
    split
    · linarith
    · next more => exact not_lt.mp fun less => more (short.mpr less)
  rw [result]
  -- Below the normal numbers the scale stays at the least one, and the lower bound is given up.
  rcases le_total (-1074) normal with least | below
  · rw [max_eq_left least]
    exact ⟨least, normal_lt, .inr normal_le⟩
  · rw [max_eq_right below]
    refine ⟨le_refl _, normal_lt.trans_le ?_, .inl rfl⟩
    have more : (2 : ℚ) ^ normal ≤ 2 ^ (-1074 : ℤ) := zpow_le_zpow_right₀ (by norm_num) below
    linarith

/-! ## The nearest word -/

theorem magnitudeWord_eq {scale : ℤ} {nearest : ℕ} (above : 0 < numerator) (pos : 0 < denominator)
    (isScale : IsScale (numerator / denominator) scale)
    (lower : (nearest - 1 / 2) * 2 ^ scale ≤ (numerator : ℚ) / denominator)
    (upper : (numerator : ℚ) / denominator ≤ (nearest + 1 / 2) * 2 ^ scale)
    (tie : (nearest - 1 / 2) * 2 ^ scale = (numerator : ℚ) / denominator ∨
      (numerator : ℚ) / denominator = (nearest + 1 / 2) * 2 ^ scale → nearest % 2 = 0) :
    magnitudeWord numerator denominator =
      min ((scale + 1074).toNat * fractionCount + nearest) infinityWord := by
  have same := (scaleOf_isScale above pos).unique isScale
  have unit : (0 : ℚ) < 2 ^ scale := by positivity
  have ratio := raised_div_raised numerator denominator scale
  have value : (numerator : ℚ) / denominator =
      raised numerator (-scale) / raised denominator scale * 2 ^ scale := by
    rw [ratio, div_mul_cancel₀ _ unit.ne']
  rw [value] at lower upper tie
  rw [mul_left_inj' unit.ne', mul_left_inj' unit.ne'] at tie
  have rounded : roundHalfEven (raised numerator (-scale)) (raised denominator scale) =
      nearest :=
    (roundHalfEven_isRounded _ (raised_pos pos scale)).unique
      ⟨le_of_mul_le_mul_right lower unit, le_of_mul_le_mul_right upper unit, tie⟩
  rw [magnitudeWord, if_neg above.ne', same]
  simp only [rounded]

/-! ## The number that comes out -/

/-- The parts of a number that is put together from a word and a sign. -/
theorem ofMagnitude_parts {word : ℕ} (negative : Bool) (lt : word < infinityWord) :
    (ofMagnitude negative word).isNegative = negative ∧
      (ofMagnitude negative word).biasedExponent = word / 2 ^ 52 ∧
      (ofMagnitude negative word).fraction = word % 2 ^ 52 := by
  simp only [infinityWord, fractionCount] at lt
  have bits : (ofMagnitude negative word).bits.toNat =
      if negative then 0x8000000000000000 + word else word := by
    rw [ofMagnitude, UInt64.toNat_ofNat', Nat.mod_eq_of_lt]
    split <;> omega
  simp only [isNegative, biasedExponent, fraction, bits, fractionCount]
  cases negative
  · refine ⟨decide_eq_false ?_, ?_, ?_⟩ <;> simp only [Bool.false_eq_true, if_false] <;> omega
  · refine ⟨decide_eq_true ?_, ?_, ?_⟩ <;> simp only [if_true] <;> omega

/-- The size of a number that is put together from an integer and its scale. -/
theorem size_ofMagnitude {scale : ℤ} {whole : ℕ} (negative : Bool) (least : -1074 ≤ scale)
    (normal : scale = -1074 ∨ 2 ^ 52 ≤ whole) (le : whole ≤ 2 ^ 53)
    (lt : (scale + 1074).toNat * fractionCount + whole < infinityWord) :
    (ofMagnitude negative ((scale + 1074).toNat * fractionCount + whole)).size =
      whole * 2 ^ scale := by
  obtain ⟨_, biased, rest⟩ := ofMagnitude_parts negative lt
  generalize ofMagnitude negative ((scale + 1074).toNat * fractionCount + whole) = number at *
  simp only [fractionCount] at biased rest
  rw [size]
  rcases number.exponent_cases with ⟨zero, power, significand⟩ | ⟨some, power, significand⟩
  · obtain rfl : scale = -1074 := by omega
    rw [power, significand, rest]
    congr 2
    omega
  · rw [power, significand, rest, biased]
    -- A significand rounded up to `2 ^ 53` carries into the exponent and leaves no fraction.
    rcases Nat.lt_or_ge whole (2 ^ 53) with less | more
    · have whole_eq : 2 ^ 52 + ((scale + 1074).toNat * 4503599627370496 + whole) % 2 ^ 52 =
          whole := by omega
      have scale_eq : ((((scale + 1074).toNat * 4503599627370496 + whole) / 2 ^ 52 : ℕ) : ℤ) -
          1075 = scale := by omega
      rw [whole_eq, scale_eq]
    · obtain rfl : whole = 2 ^ 53 := le_antisymm le more
      have whole_eq : 2 ^ 52 + ((scale + 1074).toNat * 4503599627370496 + 2 ^ 53) % 2 ^ 52 =
          2 ^ 52 := by omega
      have scale_eq : ((((scale + 1074).toNat * 4503599627370496 + 2 ^ 53) / 2 ^ 52 : ℕ) : ℤ) -
          1075 = scale + 1 := by omega
      rw [whole_eq, scale_eq, zpow_add_one₀ two_ne_zero]
      push_cast
      ring

/-- Half a unit above the greatest finite number; what is less stays finite. -/
def overflowBound : ℚ := (2 ^ 53 - 1 / 2) * 2 ^ (971 : ℤ)

/-- A quotient moves to a multiple of its unit that is at most half a unit away. -/
structure Rounds (value : ℚ) (number : Binary64) (scale : ℤ) (whole : ℕ) : Prop where
  isScale : IsScale value scale
  lower : (whole - 1 / 2) * 2 ^ scale ≤ value
  upper : value ≤ (whole + 1 / 2) * 2 ^ scale
  finite : number.isFinite = true
  size : number.size = whole * 2 ^ scale

/-- A quotient within the range is rounded to a finite number. -/
theorem exists_rounds (negative : Bool) (above : 0 < numerator) (pos : 0 < denominator)
    (bound : (numerator : ℚ) / denominator < overflowBound) :
    (ofRatio negative numerator denominator).isNegative = negative ∧
      ∃ scale whole, Rounds (numerator / denominator) (ofRatio negative numerator denominator)
        scale whole := by
  have isScale := scaleOf_isScale above pos
  obtain ⟨scale, same⟩ : ∃ scale, scale = scaleOf numerator denominator := ⟨_, rfl⟩
  obtain ⟨whole, rounded⟩ : ∃ whole, whole =
      roundHalfEven (raised numerator (-scale)) (raised denominator scale) := ⟨_, rfl⟩
  rw [← same] at isScale
  have unit : (0 : ℚ) < 2 ^ scale := by positivity
  obtain ⟨lower, upper⟩ : (whole - 1 / 2) * 2 ^ scale ≤ (numerator : ℚ) / denominator ∧
      (numerator : ℚ) / denominator ≤ (whole + 1 / 2) * 2 ^ scale := by
    have ratio := raised_div_raised numerator denominator scale
    obtain ⟨lower, upper, _⟩ :=
      roundHalfEven_isRounded (raised numerator (-scale)) (raised_pos pos scale)
    rw [← rounded, ratio] at lower upper
    exact ⟨(le_div_iff₀ unit).mp lower, (div_le_iff₀ unit).mp upper⟩
  have le : whole ≤ 2 ^ 53 := by
    have := lt_of_mul_lt_mul_right (lower.trans_lt isScale.lt) unit.le
    have less : (whole : ℚ) < (2 ^ 53 + 1 : ℕ) := by
      push_cast
      linarith
    exact Nat.lt_succ_iff.mp (by exact_mod_cast less)
  have normal : scale = -1074 ∨ 2 ^ 52 ≤ whole := isScale.le.imp_right fun more => by
    have := le_of_mul_le_mul_right (more.trans upper) unit
    have less : ((2 ^ 52 : ℕ) : ℚ) < (whole + 1 : ℕ) := by
      push_cast
      linarith
    exact Nat.lt_succ_iff.mp (by exact_mod_cast less)
  -- The word stays below that of infinity: the scale is at most 971, and at 971 the bound keeps
  -- the significand from carrying into the last exponent.
  have lt : (scale + 1074).toNat * fractionCount + whole < infinityWord := by
    rcases isScale.le with rfl | more
    · simp only [infinityWord, fractionCount]
      omega
    · have power : scale < 972 := by
        by_contra big
        have double := double_zpow_le (show 971 < scale by omega)
        have last : (0 : ℚ) < 2 ^ (971 : ℤ) := by positivity
        rw [overflowBound] at bound
        generalize (2 : ℚ) ^ (971 : ℤ) = unit at double bound last
        linarith
      have top : scale = 971 → whole < 2 ^ 53 := by
        rintro rfl
        have := lower.trans_lt bound
        rw [overflowBound] at this
        have less := lt_of_mul_lt_mul_right this (by positivity)
        have : (whole : ℚ) < (2 ^ 53 : ℕ) := by
          push_cast
          linarith only [less]
        exact_mod_cast this
      simp only [infinityWord, fractionCount]
      omega
  have word : magnitudeWord numerator denominator =
      (scale + 1074).toNat * fractionCount + whole := by
    rw [magnitudeWord, if_neg above.ne', ← same]
    simp only [← rounded]
    exact min_eq_left lt.le
  obtain ⟨sign, biased, _⟩ := ofMagnitude_parts negative lt
  rw [ofRatio, word]
  refine ⟨sign, scale, whole, isScale, lower, upper, ?_,
    size_ofMagnitude negative isScale.least normal le lt⟩
  rw [isFinite, biased, bne_iff_ne]
  simp only [infinityWord, fractionCount] at lt ⊢
  omega

/-- A quotient that is a short integer at some power of two stays as it is. -/
theorem Rounds.exact {value : ℚ} {scale power : ℤ} {whole digits : ℕ}
    (rounds : Rounds value number scale whole) (small : digits < 2 ^ 53) (least : -1074 ≤ power)
    (same : value = digits * 2 ^ power) : number.size = value := by
  have unit : (0 : ℚ) < 2 ^ scale := by positivity
  have short : (digits : ℚ) < 2 ^ 53 := by exact_mod_cast small
  -- A scale above `power` would be normal, and the digits would not fit in a significand.
  have le : scale ≤ power := by
    by_contra more
    have double := double_zpow_le (not_le.mp more)
    have normal := rounds.isScale.le.resolve_left (by omega)
    have : (0 : ℚ) < 2 ^ power := by positivity
    rw [same] at normal
    nlinarith
  have value_eq : value = (digits * 2 ^ (power - scale).toNat : ℕ) * 2 ^ scale := by
    have split : (2 : ℚ) ^ power = 2 ^ (power - scale).toNat * 2 ^ scale := by
      rw [← zpow_natCast, ← zpow_add₀ two_ne_zero]
      congr 1
      omega
    rw [same, split]
    push_cast
    ring
  have lower := rounds.lower
  have upper := rounds.upper
  rw [value_eq] at lower upper
  have below := le_of_mul_le_mul_right lower unit
  have above := le_of_mul_le_mul_right upper unit
  -- So both are multiples of one unit, and less than a unit apart.
  have whole_eq : whole = digits * 2 ^ (power - scale).toNat := by
    have le : (whole : ℚ) < (digits * 2 ^ (power - scale).toNat + 1 : ℕ) := by
      rw [Nat.cast_succ]
      linarith
    have ge : ((digits * 2 ^ (power - scale).toNat : ℕ) : ℚ) < (whole + 1 : ℕ) := by
      rw [Nat.cast_succ whole]
      linarith
    have := Nat.lt_succ_iff.mp (by exact_mod_cast le)
    have := Nat.lt_succ_iff.mp (by exact_mod_cast ge)
    omega
  rw [rounds.size, value_eq, whole_eq]

/-- A quotient moves by at most a part in two to the fifty-third, unless it is very small. -/
theorem Rounds.size_le {value : ℚ} {scale : ℤ} {whole : ℕ}
    (rounds : Rounds value number scale whole) (large : 2 ^ (-1022 : ℤ) ≤ value) :
    number.size ≤ value * (1 + 1 / 2 ^ 53) := by
  have unit : (2 : ℚ) ^ scale * 2 ^ 52 ≤ value := by
    rcases rounds.isScale.le with rfl | normal
    · refine le_trans (le_of_eq ?_) large
      rw [← zpow_natCast 2 52, ← zpow_add₀ two_ne_zero]
      norm_num
    · linarith
  have lower := rounds.lower
  rw [rounds.size]
  linarith

/-! ## Products and quotients -/

theorem mul_eq (left right : Binary64) : ∃ numerator denominator : ℕ, 0 < denominator ∧
    (numerator : ℚ) / denominator = left.size * right.size ∧
      left.mul right =
        ofRatio (left.isNegative != right.isNegative) numerator denominator := by
  refine ⟨_, _, raised_pos one_pos _, ?_, rfl⟩
  have ratio := raised_div_raised (left.significand * right.significand) 1
    (-(left.exponent + right.exponent))
  rw [neg_neg] at ratio
  rw [ratio, size, size, zpow_neg, zpow_add₀ two_ne_zero, div_inv_eq_mul]
  push_cast
  ring

theorem div_eq (left : Binary64) {right : Binary64} (pos : 0 < right.significand) :
    ∃ numerator denominator : ℕ, 0 < denominator ∧
      (numerator : ℚ) / denominator = left.size / right.size ∧
        left.div right =
          ofRatio (left.isNegative != right.isNegative) numerator denominator := by
  refine ⟨_, _, raised_pos pos _, ?_, rfl⟩
  have ratio := raised_div_raised left.significand right.significand
    (-(left.exponent - right.exponent))
  rw [neg_neg] at ratio
  rw [ratio, size, size, zpow_neg, zpow_sub₀ two_ne_zero, div_inv_eq_mul]
  field_simp

end TableKernels.Binary64
