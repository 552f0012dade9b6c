import Mathlib
import TableKernels.Decimal.Style

/-!
# How long a number gets

The text of a number is short whatever the number is: its digits are bounded by the exponents that
a number can have, and so is the power of ten that is written behind them or filled up with zeros.
-/

namespace TableKernels.Decimal

variable {number : Binary64} {tie : Tie} {scaled : Scaled}

theorem significand_lt (number : Binary64) : number.significand < 2 ^ 53 := by
  have fraction : number.fraction < 0x10000000000000 := Nat.mod_lt _ (by decide)
  simp only [Binary64.significand, Binary64.fractionCount]
  split <;> omega

theorem exponent_bounds (number : Binary64) :
    -1074 ≤ number.exponent ∧ number.exponent ≤ 972 := by
  have biased : number.biasedExponent < 2048 := Nat.mod_lt _ (by decide)
  simp only [Binary64.exponent]
  split <;> omega

theorem leadingPower_bounds (number : Binary64) :
    -325 ≤ leadingPower number ∧ leadingPower number ≤ 310 := by
  have small := significand_lt number
  have log : number.significand.log2 < 53 := by
    rcases Nat.eq_zero_or_pos number.significand with zero | pos
    · rw [zero]
      decide
    · exact (Nat.log2_lt (by omega)).mpr small
  obtain ⟨least, greatest⟩ := exponent_bounds number
  simp only [leadingPower]
  split
  · omega
  · split <;> omega

/-- A bound on the digits that stand for a float, exact or shortened. -/
def digitLimit : ℕ := 1400

/-- A scaled decimal within bounds that every number keeps. -/
structure Scaled.IsModest (scaled : Scaled) : Prop where
  digits : scaled.digits < 10 ^ digitLimit
  least : -400 ≤ scaled.power
  greatest : scaled.power ≤ 400

theorem trim_bounds (fuel : ℕ) (scaled : Scaled) :
    (Scaled.trim fuel scaled).digits ≤ scaled.digits ∧
      scaled.power ≤ (Scaled.trim fuel scaled).power ∧
        (Scaled.trim fuel scaled).power ≤ scaled.power + fuel := by
  induction fuel generalizing scaled with
  | zero => simp [Scaled.trim]
  | succ fuel hypothesis =>
    rw [Scaled.trim]
    split
    · obtain ⟨digits, least, greatest⟩ := hypothesis ⟨scaled.digits / 10, scaled.power + 1⟩
      refine ⟨digits.trans (Nat.div_le_self _ _), ?_, ?_⟩
      · simp only at least
        omega
      · simp only at greatest
        push_cast
        omega
    · refine ⟨le_refl _, le_refl _, ?_⟩
      omega

/-- A neighbour on a decimal grid is not much more than the number in units of the grid. -/
theorem neighbour?_lt {power : ℤ} {digits : ℕ} (least : -350 ≤ power)
    (found : (Interval.of number).neighbour? tie power = some digits) :
    digits < 10 ^ digitLimit := by
  have small := significand_lt number
  obtain ⟨_, exponent_le⟩ := exponent_bounds number
  have binary : (Grid.ofPowers power (Interval.of number).power).binary ≤
      10 ^ ((-power).toNat + (number.exponent - 2).toNat) := by
    change 10 ^ (-power).toNat <<< (number.exponent - 2).toNat ≤ _
    rw [Nat.shiftLeft_eq, Nat.pow_add]
    exact Nat.mul_le_mul (le_refl _) (Nat.pow_le_pow_left (by decide) _)
  have middle : (Interval.of number).middle ≤ 10 ^ 17 := by
    change 4 * number.significand ≤ _
    omega
  have more : ∀ place : ℕ, 0 < place → place + 1 < place * 10 := fun place pos => by omega
  have place : (Interval.of number).middle *
      (Grid.ofPowers power (Interval.of number).power).binary + 1 < 10 ^ digitLimit := by
    calc _ ≤ 10 ^ 17 * 10 ^ ((-power).toNat + (number.exponent - 2).toNat) + 1 :=
          Nat.succ_le_succ (Nat.mul_le_mul middle binary)
      _ < 10 ^ 17 * 10 ^ ((-power).toNat + (number.exponent - 2).toNat) * 10 :=
        more _ (Nat.mul_pos (by decide) (Nat.pow_pos (by decide)))
      _ ≤ 10 ^ digitLimit := by
        rw [← Nat.pow_add, ← Nat.pow_succ]
        refine Nat.pow_le_pow_right (by decide) ?_
        simp only [digitLimit]
        omega
  have below := Nat.div_le_self ((Interval.of number).middle *
    (Grid.ofPowers power (Interval.of number).power).binary)
    (Grid.ofPowers power (Interval.of number).power).decimal
  simp only [Interval.neighbour?] at found
  grind

theorem shortestFrom_isModest (left : ℕ) (left_le : left ≤ 17) :
    (shortestFrom (Interval.of number) tie (leadingPower number) left).IsModest := by
  induction left with
  | zero =>
    have small := significand_lt number
    refine ⟨?_, by simp [shortestFrom], by simp [shortestFrom]⟩
    change 4 * number.significand < _
    calc 4 * number.significand < 10 ^ 17 := by omega
      _ ≤ 10 ^ digitLimit := Nat.pow_le_pow_right (by decide) (by decide)
  | succ left hypothesis =>
    obtain ⟨least, greatest⟩ := leadingPower_bounds number
    rw [shortestFrom]
    split
    · next digits found =>
      obtain ⟨trimmed, lower, upper⟩ :=
        trim_bounds 17 ⟨digits, leadingPower number - (16 - left : ℕ)⟩
      refine ⟨trimmed.trans_lt (neighbour?_lt (by omega) found), ?_, ?_⟩
      · simp only at lower
        omega
      · simp only at upper
        omega
    · exact hypothesis (by omega)

theorem shortest_isModest (number : Binary64) (tie : Tie) : (shortest tie number).IsModest :=
  shortestFrom_isModest 17 (le_refl 17)

theorem length_digitsOf {count number : ℕ} (pos : 0 < count) (lt : number < 10 ^ count) :
    (digitsOf number).length ≤ count :=
  Nat.toDigits_length 10 number count pos lt

theorem length_positionalText {keepsPoint : Bool} {digits : List Char} {power : ℤ}
    (least : -400 ≤ power) (greatest : power ≤ 400) (short : digits.length ≤ digitLimit) :
    (positionalText keepsPoint digits power).length ≤ 2000 := by
  simp only [digitLimit] at short
  simp only [positionalText]
  split
  · cases keepsPoint <;> simp [zeros] <;> omega
  · split
    · simp
      omega
    · simp [zeros]
      omega

theorem length_exponentText {digits : List Char} {leading : ℤ} (short : digits.length ≤ digitLimit)
    (bound : leading.natAbs < 10 ^ 4) : (exponentText digits leading).length ≤ 1500 := by
  have power := length_digitsOf (by decide) bound
  simp only [digitLimit] at short
  unfold exponentText
  split
  · next first second rest =>
    simp only [List.length_append, List.length_cons] at short ⊢
    omega
  · simp only [List.length_append, List.length_cons]
    omega

theorem length_json_text (number : Binary64) : (Style.json.text number).length ≤ 2100 := by
  obtain ⟨digits, least, greatest⟩ := shortest_isModest number .toEven
  have short := length_digitsOf (by decide) digits
  have body : ∀ body : List Char, body.length ≤ 2000 →
      (String.ofList ((if number.isNegative then ['-'] else []) ++ body)).length ≤ 2100 := by
    intro body le
    rw [String.length_ofList, List.length_append]
    split
    · rw [List.length_singleton]
      omega
    · rw [List.length_nil]
      omega
  refine body _ ?_
  split
  · exact length_positionalText (by decide) (by decide) (by decide)
  · change (if _ then _ else _ : List Char).length ≤ _
    split
    · exact length_positionalText least greatest short
    · refine (length_exponentText short ?_).trans (by decide)
      change ((shortest .toEven number).power +
        (digitsOf (shortest .toEven number).digits).length - 1).natAbs < 10 ^ 4
      simp only [digitLimit] at short
      omega

end TableKernels.Decimal
