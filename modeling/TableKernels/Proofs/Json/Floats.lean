import TableKernels.Proofs.Json.Values

/-!
# Reading written numbers

What is read of a number's text depends on its digits and the power of ten that goes with them. As
long as the digits are exact in binary and the power is small, a single rounding takes place and the
number comes back; otherwise up to three roundings follow each other, and it may not.
-/

namespace TableKernels.Json

open Binary64 Decimal

variable {number : Binary64} {literal : Literal}

/-! ## The decimal of a literal -/

namespace Literal

/-- The digits of a literal, without its point. -/
def digits (literal : Literal) : ℕ := spelled (literal.whole ++ literal.fraction)

/-- The power of ten of the last digit. -/
def exponent (literal : Literal) : ℤ := literal.power.getD 0 - literal.fraction.length

/-- The size of the decimal that a literal spells. -/
def value (literal : Literal) : ℚ := literal.digits * 10 ^ literal.exponent

end Literal

theorem foldl_spelled (start : ℕ) (digits : List ℕ) :
    digits.foldl (fun number digit => 10 * number + digit) start =
      start * 10 ^ digits.length + spelled digits := by
  induction digits generalizing start with
  | nil => simp [spelled]
  | cons digit digits hypothesis =>
    have whole : spelled (digit :: digits) = _ := hypothesis (10 * 0 + digit)
    rw [List.foldl_cons, hypothesis, whole, List.length_cons]
    ring

theorem spelled_append (first second : List ℕ) :
    spelled (first ++ second) = spelled first * 10 ^ second.length + spelled second := by
  rw [spelled, List.foldl_append]
  exact foldl_spelled _ _

theorem gather_eq {word : ℕ} {digits : List ℕ}
    (small : digits.foldl (fun number digit => 10 * number + digit) word ≤ wordMax) :
    gather word digits = (digits.foldl (fun number digit => 10 * number + digit) word, 0) := by
  induction digits generalizing word with
  | nil => rfl
  | cons digit digits hypothesis =>
    have next : 10 * word + digit ≤ wordMax := by
      rw [List.foldl_cons, foldl_spelled] at small
      have := Nat.le_mul_of_pos_right (10 * word + digit) (Nat.pow_pos (n := digits.length)
        (show 0 < 10 by decide))
      omega
    rw [gather, if_pos next]
    exact hypothesis small

/-- A literal whose digits fit a word is scaled by its power of ten. -/
theorem float_eq (small : literal.digits ≤ wordMax) : literal.float =
    match scale (.ofInt literal.digits) literal.exponent with
    | none => .error .malformed
    | some size => .ok (.float (if literal.negative then size.negate else size)) := by
  have all : literal.fraction.foldl (fun number digit => 10 * number + digit)
      (spelled literal.whole) = literal.digits := List.foldl_append.symm
  have first : spelled literal.whole ≤ wordMax := by
    have := foldl_spelled (spelled literal.whole) literal.fraction
    have := Nat.le_mul_of_pos_right (spelled literal.whole)
      (Nat.pow_pos (n := literal.fraction.length) (show 0 < 10 by decide))
    omega
  have whole : gather 0 literal.whole = (spelled literal.whole, 0) := gather_eq first
  have rest : gather (spelled literal.whole) literal.fraction = (literal.digits, 0) := by
    rw [gather_eq (by rw [all]; exact small), all]
  have power : ((0 : ℕ) : ℤ) - (literal.fraction.length - 0 : ℕ) + literal.power.getD 0 =
      literal.exponent := by
    rw [Literal.exponent]
    omega
  cases scaled : scale (.ofInt literal.digits) literal.exponent <;>
    simp only [Literal.float, whole, rest, power, scaled]

/-! ## The decimal of a written number -/

theorem spelled_digitsOf (value : ℕ) : spelled ((digitsOf value).map digitValue) = value :=
  spelled_toDigits value

theorem spelled_zeros (count : ℕ) : spelled ((zeros count).map digitValue) = 0 := by
  induction count with
  | zero => rfl
  | succ count hypothesis => exact hypothesis

theorem decimal_literal (parts : Parts) (negative : Bool) :
    (parts.literal negative).digits =
        spelled (parts.whole.map digitValue ++ parts.fraction.map digitValue) ∧
      (parts.literal negative).exponent = parts.power?.getD 0 - parts.fraction.length := by
  simp only [Literal.digits, Literal.exponent, Parts.literal, List.length_map, and_self]

/-- The decimal of digits with a point; a whole number ends in a zero behind it. -/
theorem decimal_positionalParts (digits : List Char) (power : ℤ) (negative : Bool) :
    (power < 0 ∧
      ((positionalParts digits power).literal negative).digits =
        spelled (digits.map digitValue) ∧
      ((positionalParts digits power).literal negative).exponent = power) ∨
    (0 ≤ power ∧
      ((positionalParts digits power).literal negative).digits =
        spelled (digits.map digitValue) * 10 ^ (power.toNat + 1) ∧
      ((positionalParts digits power).literal negative).exponent = -1) := by
  have zero : spelled (['0'].map digitValue) = 0 := rfl
  rw [(decimal_literal _ _).1, (decimal_literal _ _).2]
  unfold positionalParts
  split
  · next nonneg =>
    refine .inr ⟨nonneg, ?_, rfl⟩
    rw [spelled_append, List.map_append, spelled_append, spelled_zeros, zero, List.length_map,
      List.length_map, zeros, List.length_replicate, List.length_singleton, pow_succ]
    ring
  · next negative' =>
    refine .inl ⟨not_le.mp negative', ?_⟩
    split
    · next fewer =>
      have length : (digits.drop (digits.length - (-power).toNat)).length = (-power).toNat := by
        rw [List.length_drop]
        omega
      simp only [Parts.power?, ← List.map_append, List.take_append_drop, Option.map_none,
        Option.getD_none, length, true_and]
      omega
    · next more =>
      have length : (zeros ((-power).toNat - digits.length) ++ digits).length =
          (-power).toNat := by
        rw [List.length_append, zeros, List.length_replicate]
        omega
      simp only [Parts.power?, List.map_append, spelled_append, spelled_zeros, zero, zero_mul,
        zero_add, Option.map_none, Option.getD_none, length, true_and]
      omega

theorem decimal_exponentParts {digits : List Char} (written : digits ≠ []) (leading : ℤ)
    (negative : Bool) :
    ((exponentParts digits leading).literal negative).digits = spelled (digits.map digitValue) ∧
      ((exponentParts digits leading).literal negative).exponent =
        leading - digits.length + 1 := by
  obtain ⟨first, others, rfl⟩ := List.exists_cons_of_ne_nil written
  have power : (exponentParts (first :: others) leading).power? = some leading := by
    simp only [Parts.power?, exponentParts, Option.map_some, decide_eq_true_eq, spelled_digitsOf]
    congr 1
    split
    · next negative => rw [Int.natCast_natAbs, abs_of_neg negative, neg_neg]
    · next nonneg => rw [Int.natCast_natAbs, abs_of_nonneg (not_lt.mp nonneg)]
  rw [(decimal_literal _ _).1, (decimal_literal _ _).2, power]
  refine ⟨rfl, ?_⟩
  simp only [exponentParts, List.drop_succ_cons, List.drop_zero, List.length_cons,
    Option.getD_some]
  push_cast
  ring

theorem spelled_lt {digits : List ℕ} (small : ∀ digit ∈ digits, digit < 10) :
    spelled digits < 10 ^ digits.length := by
  induction digits with
  | nil => exact Nat.one_pos
  | cons digit digits hypothesis =>
    have first := small digit (List.mem_cons_self ..)
    have rest := hypothesis fun other mem => small other (List.mem_cons_of_mem _ mem)
    have whole := spelled_append [digit] digits
    have one : spelled [digit] = digit := Nat.zero_add digit
    rw [List.singleton_append, one] at whole
    rw [whole, List.length_cons, pow_succ]
    nlinarith [Nat.mul_le_mul_right (10 ^ digits.length) (show digit ≤ 9 by omega)]

theorem lt_length_digitsOf (value : ℕ) : value < 10 ^ (digitsOf value).length := by
  have digit (character : Char) (isDigit : isDigit character = true) :
      digitValue character < 10 := by
    simp only [Json.isDigit, Bool.and_eq_true, decide_eq_true_eq] at isDigit
    have last : character.toNat ≤ 57 := UInt32.le_iff_toNat_le.mp (Char.le_def.mp isDigit.2)
    rw [digitValue]
    omega
  have lt : spelled ((digitsOf value).map digitValue) < _ := spelled_lt
    (List.forall_mem_map.mpr fun character mem =>
      digit character (isDigits_toDigits value character mem))
  rwa [spelled_digitsOf, List.length_map] at lt

/-- A nonzero number is written as its shortest decimal, a whole one in full. -/
theorem decimal_floatParts (nonzero : number.isZero = false) (negative : Bool) :
    (((floatParts number).literal negative).digits = (shortest .toEven number).digits ∧
      ((floatParts number).literal negative).exponent = (shortest .toEven number).power) ∨
    (0 ≤ (shortest .toEven number).power ∧
      ((floatParts number).literal negative).digits =
        (shortest .toEven number).digits * 10 ^ ((shortest .toEven number).power.toNat + 1) ∧
      ((floatParts number).literal negative).digits ≤ 10 ^ 17 ∧
      ((floatParts number).literal negative).exponent = -1) := by
  rw [floatParts, if_neg (by simp [nonzero])]
  dsimp only
  generalize shortest .toEven number = scaled
  split
  · next positional =>
    rcases decimal_positionalParts (digitsOf scaled.digits) scaled.power negative with
      ⟨_, digits, exponent⟩ | ⟨nonneg, digits, exponent⟩
    · rw [spelled_digitsOf] at digits
      exact .inl ⟨digits, exponent⟩
    · rw [spelled_digitsOf] at digits
      refine .inr ⟨nonneg, digits, ?_, exponent⟩
      have short := lt_length_digitsOf scaled.digits
      have leading : scaled.power + (digitsOf scaled.digits).length - 1 ≤ 15 := by
        simp only [Style.isPositional, Style.json, Bool.and_eq_true, decide_eq_true_eq]
          at positional
        exact positional.2
      rw [digits]
      calc scaled.digits * 10 ^ (scaled.power.toNat + 1)
          ≤ 10 ^ (digitsOf scaled.digits).length * 10 ^ (scaled.power.toNat + 1) :=
            Nat.mul_le_mul_right _ short.le
        _ = 10 ^ ((digitsOf scaled.digits).length + (scaled.power.toNat + 1)) :=
          (Nat.pow_add ..).symm
        _ ≤ 10 ^ 17 := Nat.pow_le_pow_right (by decide) (by omega)
  · have written : digitsOf scaled.digits ≠ [] := Nat.toDigits_ne_nil
    obtain ⟨digits, exponent⟩ := decimal_exponentParts written
      (scaled.power + (digitsOf scaled.digits).length - 1) negative
    rw [spelled_digitsOf] at digits
    refine .inl ⟨digits, ?_⟩
    rw [exponent]
    ring

theorem value_floatParts (nonzero : number.isZero = false) (negative : Bool) :
    ((floatParts number).literal negative).value = (shortest .toEven number).value := by
  rw [Literal.value, Scaled.value]
  rcases decimal_floatParts nonzero negative with
    ⟨digits, exponent⟩ | ⟨nonneg, digits, _, exponent⟩
  · rw [digits, exponent]
  · obtain ⟨count, same⟩ := Int.eq_ofNat_of_zero_le nonneg
    rw [digits, exponent, same, Int.toNat_natCast, zpow_natCast, zpow_neg_one]
    push_cast
    rw [pow_succ]
    ring

/-- What is written of a number rounds to it. -/
theorem nearest_floatParts (number : Binary64) (negative : Bool) :
    number.Nearest ((floatParts number).literal negative).value := by
  cases zero : number.isZero with
  | false =>
    rw [value_floatParts zero]
    exact shortest_nearest .toEven zero
  | true =>
    have nothing : number.significand = 0 := by
      have bits : number.bits.toNat % 0x8000000000000000 = 0 := by simpa [isZero] using zero
      have biased : number.biasedExponent = 0 := by
        simp only [biasedExponent, fractionCount]
        omega
      have fraction : number.fraction = 0 := by
        simp only [Binary64.fraction, fractionCount]
        omega
      rw [significand, if_pos biased, fraction]
    have written : ((floatParts number).literal negative).value = 0 := by
      rw [floatParts, if_pos zero, Literal.value]
      have none : ((positionalParts ['0'] 0).literal negative).digits = 0 := rfl
      rw [none, Nat.cast_zero, zero_mul]
    rw [written]
    refine .inr ⟨by simp [Interval.of, nothing], .inl ?_⟩
    simp [Interval.of, nothing]

theorem numeral_floatParts (number : Binary64) (negative : Bool) :
    ((floatParts number).literal negative).numeral =
      ((floatParts number).literal negative).float := by
  have positional (digits : List Char) (written : digits ≠ []) (power : ℤ) :
      (positionalParts digits power).fraction ≠ [] := by
    unfold positionalParts
    split
    · exact List.cons_ne_nil _ _
    · split
      · next fewer =>
        rw [ne_eq, List.drop_eq_nil_iff]
        omega
      · exact List.append_ne_nil_of_right_ne_nil _ written
  have some : (floatParts number).fraction ≠ [] ∨ (floatParts number).power ≠ none := by
    have written : digitsOf (shortest .toEven number).digits ≠ [] := Nat.toDigits_ne_nil
    unfold floatParts
    split
    · exact .inl (positional _ (List.cons_ne_nil _ _) _)
    · dsimp only
      split
      · exact .inl (positional _ written _)
      · exact .inr (Option.some_ne_none _)
  rw [Literal.numeral, if_neg]
  simp only [Parts.literal, Parts.power?, Bool.and_eq_true, List.isEmpty_iff, List.map_eq_nil_iff,
    Option.isNone_iff_eq_none, Option.map_eq_none_iff]
  exact fun none => some.elim (fun some => some none.1.1) fun some => some none.1.2

end TableKernels.Json
